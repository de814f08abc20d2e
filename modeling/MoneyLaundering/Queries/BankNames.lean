import MoneyLaundering.Queries.BankMaxima
import MoneyLaundering.Worker.SideInput
import MoneyLaundering.Workers.Mappers

/-!
# Where the name of a bank meets its maximum

Query 2 replaces bank ids by names. The names go from `AccountsFieldMapper` to the bank mappers as a
side input, the maxima from `BankMaxReducer`, and both are sharded by bank id. But the id of a bank
can be written in several ways: the join compares ids through `int`, and so does everything that
comes to a maximum, while the names are routed by the text of the accounts file
(`workers/accounts_field_mapper`).

A name and the maximum of its bank come to the same one of `mappers` replicas exactly if the two
texts have the same shard: `colocated_iff`. So they always do when the accounts file writes the id
normalised, and when it does not there is a number of replicas for which they do not, unless the two
texts collide: `bank_colocated_of_normalised`.
-/

namespace MoneyLaundering

open PythonInt

/-! ## The names -/

variable (hash : String → ℕ) (outputNodeCount : ℕ)

/-- The names a bank mapper holds after some batches of lines of the accounts file. -/
def bankNames (batches : List (List String)) (node : ℕ) : Option (Dict String String) :=
  batches.foldlM (fun names raws ↦ (raws.mapM parseAccount).bind fun banks ↦
    ((bankMapper ℕ "").sideDelta (shardedBanks hash outputNodeCount banks node)).map
      (applyBankNames · names)) Dict.empty

/-- The accounts file has a line with this bank. -/
def Lists (batches : List (List String)) (bank : Bank) : Prop :=
  ∃ raws ∈ batches, ∃ raw ∈ raws, parseAccount raw = some bank

variable {hash outputNodeCount}

/-- A name that is held stays, and every bank of a delta has a name afterwards. -/
theorem applyBankNames_ne_none {delta : List (String × String)} {names : Dict String String}
    {key : String} (h : names.get key ≠ none ∨ key ∈ delta.map Prod.fst) :
    (applyBankNames delta names).get key ≠ none := by
  induction delta generalizing names with
  | nil => exact h.resolve_right List.not_mem_nil
  | cons p delta ih =>
    refine @ih (if names.get p.1 = none then names.set p.1 p.2 else names) ?_
    rw [List.map_cons, List.mem_cons] at h
    rcases h with h | rfl | h
    · left
      split
      · rw [Dict.get_set]
        split
        · exact Option.some_ne_none _
        · exact h
      · exact h
    · left
      split
      · rw [Dict.get_set, if_pos rfl]
        exact Option.some_ne_none _
      · assumption
    · exact Or.inr h

theorem mem_of_mapM {α β : Type} {f : α → Option β} {l : List α} {l' : List β}
    (h : l.mapM f = some l') {a : α} {b : β} (ha : a ∈ l) (hb : f a = some b) : b ∈ l' := by
  induction l generalizing l' with
  | nil => exact absurd ha List.not_mem_nil
  | cons x l ih =>
    simp only [List.mapM_cons, Option.bind_eq_bind, Option.bind_eq_some_iff] at h
    obtain ⟨y, hy, rest, hrest, hl'⟩ := h
    obtain rfl := Option.some.inj hl'
    rcases List.mem_cons.mp ha with rfl | ha
    · rw [hb] at hy
      exact List.mem_cons.mpr (Or.inl (Option.some.inj hy))
    · exact List.mem_cons_of_mem _ (ih hrest ha)

/-- A mapper has a name for every listed bank that is routed to it. -/
theorem bankNames_ne_none {batches : List (List String)} {node : ℕ} {names : Dict String String}
    {bank : Bank} {z : ℤ} (h : bankNames hash outputNodeCount batches node = some names)
    (hlists : Lists batches bank) (hnode : nameNode hash outputNodeCount bank = node)
    (hz : pyInt bank.bankId = some z) : names.get (toString z) ≠ none := by
  suffices hfold : ∀ (batches : List (List String)) (start : Dict String String),
      batches.foldlM (fun names raws ↦ (raws.mapM parseAccount).bind fun banks ↦
        ((bankMapper ℕ "").sideDelta (shardedBanks hash outputNodeCount banks node)).map
          (applyBankNames · names)) start = some names →
      start.get (toString z) ≠ none ∨ Lists batches bank → names.get (toString z) ≠ none from
    hfold batches Dict.empty h (Or.inr hlists)
  intro batches
  induction batches with
  | nil =>
    rintro start h (hstart | ⟨raws, hraws, -⟩)
    · obtain rfl := Option.some.inj h
      exact hstart
    · exact absurd hraws List.not_mem_nil
  | cons raws batches ih =>
    intro start h hhas
    rw [List.foldlM_cons, Option.bind_eq_bind, Option.bind_eq_some_iff] at h
    obtain ⟨next, hnext, h⟩ := h
    obtain ⟨banks, hbanks, hnext⟩ := Option.bind_eq_some_iff.mp hnext
    obtain ⟨delta, hdelta, rfl⟩ := Option.map_eq_some_iff.mp hnext
    refine ih _ h ?_
    rcases hhas with hstart | ⟨raws', hraws', raw, hraw, hparse⟩
    · exact Or.inl (applyBankNames_ne_none (Or.inl hstart))
    · rcases List.mem_cons.mp hraws' with rfl | hraws'
      · have hshard : bank ∈ shardedBanks hash outputNodeCount banks node :=
          List.mem_filter.mpr ⟨mem_of_mapM hbanks hraw hparse, by simpa using hnode⟩
        have hmem : (toString z, bank.name) ∈ delta :=
          mem_of_mapM hdelta hshard (by rw [hz, Option.map_some])
        exact Or.inl (applyBankNames_ne_none (Or.inr (List.mem_map_of_mem hmem)))
      · exact Or.inr ⟨raws', hraws', raw, hraw, hparse⟩

/-! ## The maxima -/

section Maxima

variable {A : Type} [LinearOrder A]

/-- `output` is what the reducers flush in some run of query 2 over these transactions. -/
def MaximaFlushed (hash : String → ℕ) (cfg cfg' : Config A) (client : ClientId) (reducers : ℕ)
    (txs : List (Transaction A)) (output : ℕ → List (Message (BankMaxPartial A))) : Prop :=
  ∃ (batches : List (MessageId × List (Transaction A))) (assign : MessageId → ℕ) (aggregators : ℕ)
    (deliveries : ℕ → List (MessageId × List (Transaction A)))
    (parts : ℕ → List (Message (BankMaxPartial A)))
    (deliveries' : ℕ → List (MessageId × List (BankMaxPartial A))),
    (batches.flatMap Prod.snd).Perm txs ∧ (batches.map Prod.fst).Nodup ∧
    (∀ b ∈ batches, assign b.1 < aggregators) ∧ cfg.numShards = reducers ∧
    Delivers aggregators (assigned assign batches) deliveries ∧
    Yields (bankMaxAggregator hash cfg) client aggregators deliveries parts ∧
    Delivers reducers (fun r ↦ routed aggregators parts (toString r)) deliveries' ∧
    Yields (bankMaxReducer hash cfg') client reducers deliveries' output

variable {cfg cfg' : Config A} {client : ClientId} {reducers : ℕ} {txs : List (Transaction A)}
  {output : ℕ → List (Message (BankMaxPartial A))}

theorem MaximaFlushed.exists_items (h : MaximaFlushed hash cfg cfg' client reducers txs output)
    (hreducers : 0 < reducers)
    (hvalid : ∀ tx ∈ txs, ∃ bank account amount, tx.Pays bank account amount) :
    ∃ items : ℕ → List (BankMaxPartial A),
      FlushesItems hash .bankMaxPartialBatch client BankMaxPartial.fromBank reducers
        cfg'.outputNodeCount cfg'.batchSize toString items output ∧
      ∀ p, p ∈ (List.range reducers).flatMap items ↔ IsBest txs p := by
  obtain ⟨batches, assign, aggregators, deliveries, parts, deliveries', hbatches,
      hids, hassign, rfl,
    hdelivers, hyields, hdelivers', hyields'⟩ := h
  obtain ⟨items, hflush, hparts⟩ :=
    (aggregators_flush hvalid hbatches hids hassign hdelivers).2 parts hyields
  obtain ⟨items', hflush', -, hmem⟩ :=
    (reducers_flush hreducers hflush hparts hdelivers').2 output hyields'
  exact ⟨items', hflush', hmem⟩

/-- The transactions of a client can be flushed. -/
theorem exists_maximaFlushed (hash : String → ℕ) (cfg cfg' : Config A) (client : ClientId)
    (hvalid : ∀ tx ∈ txs, ∃ bank account amount, tx.Pays bank account amount)
    (hshards : cfg.numShards = 1) : ∃ output, MaximaFlushed hash cfg cfg' client 1 txs output := by
  have hself : ∀ {α : Type} {n : ℕ} (f : ℕ → List α), Delivers n f f := fun _ _ _ _ ↦ Iff.rfl
  have hbatches : ([(("c:0" : MessageId), txs)].flatMap Prod.snd).Perm txs := by simp
  have hassign : ∀ b ∈ [(("c:0" : MessageId), txs)], (fun _ : MessageId ↦ 0) b.1 < 1 := by simp
  have hids : ([(("c:0" : MessageId), txs)].map Prod.fst).Nodup := List.nodup_singleton _
  obtain ⟨⟨parts, hyields⟩, hflush⟩ := @aggregators_flush A _ hash cfg client txs _ (fun _ ↦ 0) 1
    hvalid hbatches hids hassign _ (hself _)
  obtain ⟨items, hflush, hparts⟩ := hflush parts hyields
  obtain ⟨⟨output, hyields'⟩, -⟩ :=
    @reducers_flush A _ hash cfg' client txs 1 1 one_pos items _ parts
    (hshards ▸ hflush) hparts _ (hself _)
  exact ⟨output, _, _, _, _, parts, _, hbatches, hids, hassign, hshards, hself _, hyields, hself _,
    hyields'⟩

/-- **The name of a bank and its maximum meet** in every run with this number of mappers, when the
accounts file writes the id of the bank so: the mapper that gets the maximum is the one that gets
the name, and it knows the name. -/
def Colocated (A : Type) [LinearOrder A] (hash : String → ℕ) (mappers : ℕ) (bankId : String) :
    Prop :=
  ∀ (cfg cfg' : Config A) (client : ClientId) (reducers : ℕ) (txs : List (Transaction A))
    (output : ℕ → List (Message (BankMaxPartial A))),
    0 < reducers → cfg'.outputNodeCount = mappers →
    (∀ tx ∈ txs, ∃ bank account amount, tx.Pays bank account amount) →
    MaximaFlushed hash cfg cfg' client reducers txs output →
    ∀ r < reducers, ∀ m ∈ output r, ∀ p ∈ m.payload, pyInt p.fromBank = pyInt bankId →
    ∀ node : ℕ, m.routingKey = some (toString node) →
      ∀ name, nameNode hash mappers ⟨bankId, name⟩ = node ∧
        ∀ accounts names z, Lists accounts ⟨bankId, name⟩ →
          bankNames hash mappers accounts node = some names →
          pyInt bankId = some z → names.get (toString z) ≠ none

omit [LinearOrder A] in
/-- Where the maximum of a bank is sent. -/
theorem routingKey_of_mem {items : ℕ → List (BankMaxPartial A)} {numShards batchSize : ℕ}
    (hflush : FlushesItems hash .bankMaxPartialBatch client BankMaxPartial.fromBank reducers
      numShards batchSize toString items output) {r : ℕ} (hr : r < reducers)
    {m : Message (BankMaxPartial A)} (hm : m ∈ output r) {p : BankMaxPartial A}
    (hp : p ∈ m.payload) :
    m.routingKey = some (toString (shardOf hash p.fromBank numShards)) ∧ p ∈ items r := by
  rw [hflush r hr] at hm
  obtain ⟨shard, -, -, hkey, -, -, hitems⟩ := mem_flushSharded hm
  rw [hkey, shardOf, (hitems p hp).2]
  exact ⟨rfl, (hitems p hp).1⟩

/-- A name and a maximum meet exactly if the id in the accounts file has the shard of the normalised
one. -/
theorem colocated_iff [Nonempty A] {mappers : ℕ} {bankId : String} {z : ℤ}
    (hz : pyInt bankId = some z) :
    Colocated A hash mappers bankId
      ↔ shardOf hash bankId mappers = shardOf hash (toString z) mappers := by
  constructor
  · intro h
    obtain ⟨amount⟩ := ‹Nonempty A›
    let tx : Transaction A := ⟨none, some bankId, some "", none, none, some amount, none, none⟩
    have hpays : tx.Pays (toString z) "" amount :=
      ⟨rfl, rfl, bankId, rfl, by rw [hz, Option.map_some]⟩
    have hvalid : ∀ tx' ∈ [tx], ∃ bank account amount, tx'.Pays bank account amount := by
      intro tx' htx'
      rw [List.mem_singleton.mp htx']
      exact ⟨_, _, _, hpays⟩
    let cfg : Config A := ⟨1, mappers, "", 1, 1, amount, ""⟩
    obtain ⟨output, hflushed⟩ := exists_maximaFlushed hash cfg cfg "c" hvalid rfl
    obtain ⟨items, hflush, hmem⟩ := hflushed.exists_items one_pos hvalid
    have hbest : IsBest [tx] ⟨toString z, "", amount⟩ := by
      refine ⟨⟨tx, List.mem_singleton_self tx, hpays⟩, fun tx' htx' account amount' hpays' ↦ ?_⟩
      rw [List.mem_singleton.mp htx'] at hpays'
      obtain ⟨hamount, haccount, -⟩ := hpays'
      obtain rfl := Option.some.inj hamount
      obtain rfl := Option.some.inj haccount
      exact Or.inr ⟨rfl, le_rfl⟩
    obtain ⟨r, hr, hmem⟩ := List.mem_flatMap.mp
      ((flatMap_payload_routed hflush).mem_iff.mpr ((hmem _).mpr hbest))
    obtain ⟨m, hm, hp⟩ := List.mem_flatMap.mp hmem
    have hkey := (routingKey_of_mem hflush (List.mem_range.mp hr) hm hp).1
    exact (h cfg cfg "c" 1 [tx] output one_pos rfl hvalid hflushed r
      (List.mem_range.mp hr) m hm _ hp
      (by rw [pyInt_toString, hz]) _ hkey "").1
  · rintro hshard cfg cfg' client reducers txs output hreducers rfl hvalid hflushed r hr m hm p hp
      hint node hnode name
    obtain ⟨items, hflush, hmem⟩ := hflushed.exists_items hreducers hvalid
    obtain ⟨hkey, hin⟩ := routingKey_of_mem hflush hr hm hp
    obtain ⟨⟨tx, -, -, -, text, -, hbank⟩, -⟩ :=
      (hmem p).mp (List.mem_flatMap.mpr ⟨r, List.mem_range.mpr hr, hin⟩)
    -- the id of a flushed maximum is normalised
    have hnormal : p.fromBank = toString z := by
      obtain ⟨z', -, hz'⟩ := Option.map_eq_some_iff.mp hbank
      rw [← hz', pyInt_toString, hz, Option.some_inj] at hint
      rw [← hz', hint]
    have hname : nameNode hash cfg'.outputNodeCount ⟨bankId, name⟩ = node := by
      refine natToString_injective (Option.some.inj (Eq.trans ?_ hnode))
      rw [hkey, hnormal, nameNode, hshard]
    refine ⟨hname, fun accounts names z' hlists hnames hz' ↦ ?_⟩
    exact bankNames_ne_none hnames hlists hname hz'

/-- **A name and a maximum meet when the accounts file writes the id of the bank normalised**, for
every number of mappers. When it does not, there is a number of mappers for which they do not meet,
unless the two ways of writing the id have the same hash. -/
theorem bank_colocated_of_normalised [Nonempty A] {bankId : String} {z : ℤ}
    (hz : pyInt bankId = some z) :
    (bankId = toString z → ∀ mappers, Colocated A hash mappers bankId) ∧
      (bankId ≠ toString z → hash bankId ≠ hash (toString z) →
        ∃ mappers, 0 < mappers ∧ ¬Colocated A hash mappers bankId) := by
  constructor
  · intro hnormal mappers
    rw [colocated_iff hz, ← hnormal]
  · intro _ hhash
    -- with this many mappers the shards are the hashes themselves
    let mappers := max (hash bankId) (hash (toString z)) + 1
    have hb : hash bankId < mappers := Nat.lt_succ_of_le (le_max_left _ _)
    have hk : hash (toString z) < mappers := Nat.lt_succ_of_le (le_max_right _ _)
    refine ⟨mappers, Nat.succ_pos _, fun h ↦ hhash ?_⟩
    have hshard := (colocated_iff hz).mp h
    rwa [shardOf, shardOf, Nat.mod_eq_of_lt hb, Nat.mod_eq_of_lt hk] at hshard

end Maxima

/-- A bank whose id is normalised, and the same bank when its id is not. -/
theorem bank_colocated_of_normalised_two :
    (∀ mappers, Colocated ℕ hashOf mappers "2") ∧
      ∃ mappers, 0 < mappers ∧ ¬Colocated ℕ hashOf mappers "02" :=
  ⟨(bank_colocated_of_normalised (z := 2) (by decide)).1 rfl,
    (bank_colocated_of_normalised (z := 2) (by decide)).2 (by decide) (by decide +kernel)⟩

/-- The maximum of one bank, flushed by the only node of a stage. -/
def flushedMaximum (outputNodeCount : ℕ) (i : ℕ) : List (Message (BankMaxPartial ℕ)) :=
  flushSharded hashOf .bankMaxPartialBatch "c" i BankMaxPartial.fromBank outputNodeCount 1 toString
    [⟨"2", "a", 5⟩]

theorem maximaFlushed_flushedMaximum :
    MaximaFlushed hashOf ⟨1, 2, "", 1, 1, 0, ""⟩ ⟨1, 2, "", 1, 1, 0, ""⟩ "c" 1 [payment "02" "a" 5]
      (flushedMaximum 2) := by
  have hrouted : ∀ r < 1, routed 1 (flushedMaximum 1) (toString r)
      = [("c:0:0", [⟨"2", "a", 5⟩])] := by
    decide +kernel
  refine ⟨[("c:0", [payment "02" "a" 5])], fun _ ↦ 0, 1, fun _ ↦ [("c:0", [payment "02" "a" 5])],
    flushedMaximum 1, fun _ ↦ [("c:0:0", [⟨"2", "a", 5⟩])], List.Perm.refl _,
      List.nodup_singleton _,
    by simp, rfl, ?_, ?_, ?_, ?_⟩
  · intro i hi d
    obtain rfl := Nat.lt_one_iff.mp hi
    rfl
  · intro i hi
    obtain rfl := Nat.lt_one_iff.mp hi
    exact ⟨_, _, rfl, rfl, rfl⟩
  · intro r hr d
    simp only [hrouted r hr]
  · intro r hr
    obtain rfl := Nat.lt_one_iff.mp hr
    exact ⟨_, _, rfl, rfl, rfl⟩

/-- With two mappers the name of bank `02` goes to the second one and its maximum, under the id `2`,
to the first one, which reports the bank as unknown. -/
theorem bank_reported_unknown :
    ∃ output : ℕ → List (Message (BankMaxPartial ℕ)),
      MaximaFlushed hashOf ⟨1, 2, "", 1, 1, 0, ""⟩ ⟨1, 2, "", 1, 1, 0, ""⟩ "c" 1
        [payment "02" "a" 5]
        output ∧
      (output 0).map (fun m ↦ (m.routingKey, m.payload)) = [(some "0", [⟨"2", "a", 5⟩])] ∧
      parseAccount "First Bank,02" = some ⟨"02", "First Bank"⟩ ∧
      nameNode hashOf 2 ⟨"02", "First Bank"⟩ = 1 ∧
      bankNames hashOf 2 [["First Bank,02"]] 0 = some Dict.empty ∧
      (∀ m ∈ output 0, ((bankMapper ℕ "2").emit "c" Dict.empty m.messageId m.payload).map
        Message.payload = some [⟨"Unknown", "a", 5⟩]) ∧
      ¬Colocated ℕ hashOf 2 "02" := by
  have hkey : (flushedMaximum 2 0).map (fun m ↦ (m.routingKey, m.payload))
      = [(some "0", [⟨"2", "a", 5⟩])] := by decide +kernel
  have hnode : nameNode hashOf 2 ⟨"02", "First Bank"⟩ = 1 := by decide +kernel
  have hshard : shardedBanks hashOf 2 [⟨"02", "First Bank"⟩] 0 = [] := by decide +kernel
  have hmessage : ∀ m ∈ flushedMaximum 2 0,
      m.routingKey = some "0" ∧ m.payload = [⟨"2", "a", 5⟩] := by
    intro m hm
    have hmem := List.mem_map_of_mem (f := fun m ↦ (m.routingKey, m.payload)) hm
    rw [hkey, List.mem_singleton] at hmem
    exact Prod.mk.inj hmem
  refine ⟨flushedMaximum 2, maximaFlushed_flushedMaximum, hkey, by decide, hnode, ?_,
    fun m hm ↦ ?_, fun h ↦ ?_⟩
  · have hparse : ["First Bank,02"].mapM parseAccount = some [⟨"02", "First Bank"⟩] := by decide
    rw [bankNames, List.foldlM_cons, hparse, Option.bind_some, hshard]
    rfl
  · rw [(hmessage m hm).2]
    rfl
  · have hne : flushedMaximum 2 0 ≠ [] := fun hnil ↦ by
      rw [hnil] at hkey
      exact absurd hkey.symm (List.cons_ne_nil _ _)
    obtain ⟨m, hm⟩ := List.exists_mem_of_ne_nil _ hne
    have hvalid : ∀ tx ∈ [payment "02" "a" 5], ∃ bank account amount,
        tx.Pays bank account amount := by
      intro tx htx
      rw [List.mem_singleton.mp htx]
      exact ⟨"2", "a", 5, rfl, rfl, "02", rfl, by decide⟩
    have hzero := (h _ _ "c" 1 _ _ one_pos rfl hvalid maximaFlushed_flushedMaximum 0 one_pos m
      hm ⟨"2", "a", 5⟩ (by rw [(hmessage m hm).2]; exact List.mem_singleton_self _) (by decide) 0
      (hmessage m hm).1 "First Bank").1
    exact absurd (hzero.symm.trans hnode) (by decide)

end MoneyLaundering
