import MoneyLaundering.Messages.Ids
import Mathlib.Data.List.DropRight

/-!
# What a client uploads

A client reads two CSV files in batches (`client/main.py`, `_read_batches`) and sends the batches of
each, numbered, and then the end of it with their number (`_messages_to_send`). For each of these
uploads the gateway publishes one message to the workers, with an id made of the number
(`gateway/internal/internal_router.py`).
-/

namespace MoneyLaundering

open PythonInt

/-- `line.rstrip("\n")`. -/
def rstripNewline (line : String) : String :=
  String.ofList (line.toList.rdropWhile (· = '\n'))

/-- The loop of `_read_batches`, with the records of the current batch. -/
def readLines (batchSize : ℕ) : List String → List String → List (List String)
  | batch, [] => if batch = [] then [] else [batch]
  | batch, line :: lines =>
    let raw := rstripNewline line
    if raw = "" then readLines batchSize batch lines
    else if batchSize ≤ (batch ++ [raw]).length then
      (batch ++ [raw]) :: readLines batchSize [] lines
    else readLines batchSize (batch ++ [raw]) lines

/-- `_read_batches`. The first line is a header; if there is none, the generator raises. -/
def readBatches (batchSize : ℕ) : List String → Option (List (List String))
  | [] => none
  | _ :: lines => some (readLines batchSize [] lines)

example : readBatches 2 ["bank,account\n", "1,a\n", "\n", "2,b\n", "3,c"]
    = some [["1,a", "2,b"], ["3,c"]] := by decide

/-! ## The stream -/

/-- A message that a client has to send. -/
inductive Upload
  | transactionBatch (records : List String) (batchIndex : ℕ)
  | eofTransactions (count : ℕ)
  | accountBatch (records : List String) (batchIndex : ℕ)
  | eofAccounts (count : ℕ)
  deriving DecidableEq, Repr

/-- The part of `client/config.py` that concerns the messages. -/
structure ClientConfig where
  inputCsvTransactions : List String
  inputCsvAccounts : List String
  transactionsBatchSize : ℕ
  accountsBatchSize : ℕ
  expectedQueryIds : List ℤ

namespace ClientConfig

variable (cfg : ClientConfig)

def transactionBatches : Option (List (List String)) :=
  readBatches cfg.transactionsBatchSize cfg.inputCsvTransactions

def accountBatches : Option (List (List String)) :=
  readBatches cfg.accountsBatchSize cfg.inputCsvAccounts

end ClientConfig

/-- The batches of a file, numbered, and its end. -/
def numbered (batchOf : List String → ℕ → Upload) (eofOf : ℕ → Upload)
    (batches : List (List String)) : List Upload :=
  batches.zipIdx.map (fun p ↦ batchOf p.1 p.2) ++ [eofOf batches.length]

/-- `_messages_to_send`: what the generator yields, and whether it then raises. -/
def messagesToSend (cfg : ClientConfig) : List Upload × Bool :=
  match cfg.transactionBatches with
  | none => ([], true)
  | some transactions =>
    match cfg.accountBatches with
    | none => (numbered .transactionBatch .eofTransactions transactions, true)
    | some accounts =>
      (numbered .transactionBatch .eofTransactions transactions
        ++ numbered .accountBatch .eofAccounts accounts, false)

section Numbered

variable {batchOf : List String → ℕ → Upload} {eofOf : ℕ → Upload} {batches : List (List String)}
  {records : List String} {i : ℕ}

theorem getElem?_numbered (h : batches[i]? = some records) :
    (numbered batchOf eofOf batches)[i]? = some (batchOf records i) := by
  obtain ⟨hlt, -⟩ := List.getElem?_eq_some_iff.mp h
  rw [numbered, List.getElem?_append_left (by simpa using hlt), List.getElem?_map,
    List.getElem?_zipIdx, h, Option.map_some, Option.map_some, Nat.zero_add]

theorem getElem?_numbered_length :
    (numbered batchOf eofOf batches)[batches.length]? = some (eofOf batches.length) := by
  rw [numbered, List.getElem?_append_right (by simp), List.length_map, List.length_zipIdx,
    Nat.sub_self]
  rfl

theorem mem_numbered {u : Upload} :
    u ∈ numbered batchOf eofOf batches ↔
      (∃ records i, batches[i]? = some records ∧ u = batchOf records i) ∨
        u = eofOf batches.length := by
  rw [numbered, List.mem_append, List.mem_singleton, List.mem_map]
  refine or_congr_left ⟨fun ⟨p, hp, hu⟩ ↦ ?_, fun ⟨records, i, hi, hu⟩ ↦ ?_⟩
  · exact ⟨p.1, p.2, List.mem_zipIdx_iff_getElem?.mp hp, hu.symm⟩
  · exact ⟨(records, i), List.mem_zipIdx_iff_getElem?.mpr hi, hu.symm⟩

/-- The batches of a file have different numbers, and none of them is its end. -/
theorem nodup_numbered (number : Upload → ℕ) (hnumber : ∀ records i, number (batchOf records i) = i)
    (hne : ∀ records i count, batchOf records i ≠ eofOf count) :
    (numbered batchOf eofOf batches).Nodup := by
  refine List.Nodup.append ?_ (List.nodup_singleton _) fun u hu heof ↦ ?_
  · refine List.Nodup.of_map number ?_
    have hsnd : (batches.zipIdx.map fun p ↦ batchOf p.1 p.2).map number
        = batches.zipIdx.map Prod.snd := by
      rw [List.map_map]
      exact List.map_congr_left fun p _ ↦ hnumber p.1 p.2
    rw [hsnd, List.zipIdx_map_snd]
    exact List.nodup_range'
  · obtain ⟨p, -, rfl⟩ := List.mem_map.mp hu
    exact hne _ _ _ (List.mem_singleton.mp heof)

end Numbered

/-- No message is yielded twice. -/
theorem nodup_messagesToSend (cfg : ClientConfig) : (messagesToSend cfg).1.Nodup := by
  let number : Upload → ℕ
    | .transactionBatch _ i | .accountBatch _ i => i
    | .eofTransactions _ | .eofAccounts _ => 0
  have htransactions (batches : List (List String)) :
      (numbered .transactionBatch .eofTransactions batches).Nodup :=
    nodup_numbered number (fun _ _ ↦ rfl) fun _ _ _ ↦ by simp
  have haccounts (batches : List (List String)) :
      (numbered .accountBatch .eofAccounts batches).Nodup :=
    nodup_numbered number (fun _ _ ↦ rfl) fun _ _ _ ↦ by simp
  rw [messagesToSend]
  split
  · exact List.nodup_nil
  · split
    · exact htransactions _
    · refine (htransactions _).append (haccounts _) fun u hu hu' ↦ ?_
      rcases mem_numbered.mp hu with ⟨_, _, -, rfl⟩ | rfl <;>
        rcases mem_numbered.mp hu' with ⟨_, _, -, heq⟩ | heq <;> cases heq

section Positions

variable {cfg : ClientConfig}

/-- The generator yields the transactions, and then the accounts. -/
theorem messagesToSend_transactions {transactions : List (List String)}
    (ht : cfg.transactionBatches = some transactions) :
    ∃ later, (messagesToSend cfg).1
      = [] ++ numbered .transactionBatch .eofTransactions transactions ++ later := by
  rw [messagesToSend, ht]
  simp only
  split
  · exact ⟨[], (List.append_nil _).symm⟩
  · exact ⟨_, rfl⟩

theorem messagesToSend_accounts {transactions accounts : List (List String)}
    (ht : cfg.transactionBatches = some transactions) (ha : cfg.accountBatches = some accounts) :
    (messagesToSend cfg).1
      = numbered .transactionBatch .eofTransactions transactions
        ++ numbered .accountBatch .eofAccounts accounts ++ [] := by
  rw [messagesToSend, ht, ha, List.append_nil]

theorem mem_messagesToSend {u : Upload} (hu : u ∈ (messagesToSend cfg).1) :
    (∃ transactions, cfg.transactionBatches = some transactions ∧
      u ∈ numbered .transactionBatch .eofTransactions transactions) ∨
    ∃ transactions accounts, cfg.transactionBatches = some transactions ∧
      cfg.accountBatches = some accounts ∧ u ∈ numbered .accountBatch .eofAccounts accounts := by
  rcases ht : cfg.transactionBatches with _ | transactions
  · rw [messagesToSend, ht] at hu
    exact absurd hu List.not_mem_nil
  · rcases ha : cfg.accountBatches with _ | accounts
    · rw [messagesToSend, ht, ha] at hu
      exact Or.inl ⟨transactions, rfl, hu⟩
    · rw [messagesToSend, ht, ha] at hu
      exact (List.mem_append.mp hu).imp (fun hu ↦ ⟨transactions, rfl, hu⟩)
        fun hu ↦ ⟨transactions, accounts, rfl, rfl, hu⟩

/-- The end of a file stands behind its batches. -/
theorem exists_lt_of_getElem?_eof {batchOf : List String → ℕ → Upload} {eofOf : ℕ → Upload}
    {batches : List (List String)} {earlier later : List Upload} {k : ℕ}
    (hstream : (messagesToSend cfg).1 = earlier ++ numbered batchOf eofOf batches ++ later)
    (hk : (messagesToSend cfg).1[k]? = some (eofOf batches.length)) {records : List String} {i : ℕ}
    (hi : batches[i]? = some records) :
    ∃ j < k, (messagesToSend cfg).1[j]? = some (batchOf records i) := by
  have hget {n : ℕ} {u : Upload} (hn : (numbered batchOf eofOf batches)[n]? = some u) :
      (messagesToSend cfg).1[earlier.length + n]? = some u := by
    obtain ⟨hlt, -⟩ := List.getElem?_eq_some_iff.mp hn
    rw [hstream, List.append_assoc, List.getElem?_append_right (Nat.le_add_right _ _),
      Nat.add_sub_cancel_left, List.getElem?_append_left hlt, hn]
  have heof := hget getElem?_numbered_length
  have hk' : k = earlier.length + batches.length := by
    obtain ⟨hlt, -⟩ := List.getElem?_eq_some_iff.mp hk
    exact (List.getElem?_inj hlt (nodup_messagesToSend cfg)).mp (hk.trans heof.symm)
  obtain ⟨hlt, -⟩ := List.getElem?_eq_some_iff.mp hi
  exact ⟨earlier.length + i, by omega, hget (getElem?_numbered hi)⟩

/-- What is in the stream under a constructor of the first file is not in the second, and the other
way around. -/
theorem not_mem_numbered {batchOf : List String → ℕ → Upload} {eofOf : ℕ → Upload}
    {batches : List (List String)} {u : Upload} (hbatch : ∀ records i, u ≠ batchOf records i)
    (heof : ∀ count, u ≠ eofOf count) : u ∉ numbered batchOf eofOf batches := fun hu ↦
  (mem_numbered.mp hu).elim (fun ⟨records, i, _, heq⟩ ↦ hbatch records i heq) (heof _)

theorem exists_transactions_of_mem {records : List String} {i : ℕ}
    (hu : .transactionBatch records i ∈ (messagesToSend cfg).1) :
    ∃ transactions, cfg.transactionBatches = some transactions ∧
      transactions[i]? = some records := by
  rcases mem_messagesToSend hu with ⟨transactions, ht, hu⟩ | ⟨_, _, -, -, hu⟩
  · rcases mem_numbered.mp hu with ⟨_, _, hi, heq⟩ | heq
    · cases heq
      exact ⟨transactions, ht, hi⟩
    · cases heq
  · exact absurd hu (not_mem_numbered (by simp) (by simp))

theorem exists_accounts_of_mem {records : List String} {i : ℕ}
    (hu : .accountBatch records i ∈ (messagesToSend cfg).1) :
    ∃ accounts, cfg.accountBatches = some accounts ∧ accounts[i]? = some records := by
  rcases mem_messagesToSend hu with ⟨_, -, hu⟩ | ⟨_, accounts, -, ha, hu⟩
  · exact absurd hu (not_mem_numbered (by simp) (by simp))
  · rcases mem_numbered.mp hu with ⟨_, _, hi, heq⟩ | heq
    · cases heq
      exact ⟨accounts, ha, hi⟩
    · cases heq

theorem exists_lt_of_getElem?_eofTransactions {k count : ℕ}
    (hk : (messagesToSend cfg).1[k]? = some (.eofTransactions count)) :
    ∃ transactions, cfg.transactionBatches = some transactions ∧ count = transactions.length ∧
      ∀ i records, transactions[i]? = some records →
        ∃ j < k, (messagesToSend cfg).1[j]? = some (.transactionBatch records i) := by
  rcases mem_messagesToSend (List.mem_of_getElem? hk) with ⟨transactions, ht, hu⟩ | ⟨_, _, -, -, hu⟩
  · obtain rfl : count = transactions.length := by
      rcases mem_numbered.mp hu with ⟨_, _, -, heq⟩ | heq
      · cases heq
      · exact Upload.eofTransactions.inj heq
    obtain ⟨later, hstream⟩ := messagesToSend_transactions ht
    exact ⟨transactions, ht, rfl, fun i records hi ↦ exists_lt_of_getElem?_eof hstream hk hi⟩
  · exact absurd hu (not_mem_numbered (by simp) (by simp))

theorem exists_lt_of_getElem?_eofAccounts {k count : ℕ}
    (hk : (messagesToSend cfg).1[k]? = some (.eofAccounts count)) :
    ∃ accounts, cfg.accountBatches = some accounts ∧ count = accounts.length ∧
      ∀ i records, accounts[i]? = some records →
        ∃ j < k, (messagesToSend cfg).1[j]? = some (.accountBatch records i) := by
  rcases mem_messagesToSend (List.mem_of_getElem? hk) with
    ⟨_, -, hu⟩ | ⟨transactions, accounts, ht, ha, hu⟩
  · exact absurd hu (not_mem_numbered (by simp) (by simp))
  · obtain rfl : count = accounts.length := by
      rcases mem_numbered.mp hu with ⟨_, _, -, heq⟩ | heq
      · cases heq
      · exact Upload.eofAccounts.inj heq
    exact ⟨accounts, ha, rfl, fun i records hi ↦
      exists_lt_of_getElem?_eof (messagesToSend_accounts ht ha) hk hi⟩

end Positions

/-! ## What is published -/

inductive RawPayload
  | rawTransactionBatch (records : List String)
  | rawAccountBatch (records : List String)
  | eof (eof : EOF)
  deriving DecidableEq, Repr

/-- A message on the exchange of the raw data. -/
structure RawMessage where
  clientId : ClientId
  payload : RawPayload
  routingKey : String
  messageId : MessageId
  deriving DecidableEq, Repr

structure InternalRouter where
  transactionRk : String
  accountRk : String

namespace InternalRouter

variable (router : InternalRouter) (client : ClientId)

def forwardRawTransactions (batch : List String) (batchIndex : String) : RawMessage :=
  ⟨client, .rawTransactionBatch batch, router.transactionRk, rootId client batchIndex⟩

def forwardRawAccounts (batch : List String) (batchIndex : String) : RawMessage :=
  ⟨client, .rawAccountBatch batch, router.accountRk, rootId client batchIndex⟩

def forwardEofTransactions (batchCount : ℤ) : RawMessage :=
  ⟨client, .eof ⟨batchCount⟩, router.transactionRk, eofId client none⟩

def forwardEofAccounts (batchCount : ℤ) : RawMessage :=
  ⟨client, .eof ⟨batchCount⟩, router.accountRk, eofId client none⟩

/-- What `ClientHandler._dispatch` forwards for an upload, whose number travels as a string. Nothing
if `int` raises. -/
def dispatch : Upload → Option RawMessage
  | .transactionBatch records batchIndex =>
    some (router.forwardRawTransactions client records (toString batchIndex))
  | .accountBatch records batchIndex =>
    some (router.forwardRawAccounts client records (toString batchIndex))
  | .eofTransactions count =>
    (pyInt (toString count)).map fun n ↦ router.forwardEofTransactions client n
  | .eofAccounts count => (pyInt (toString count)).map fun n ↦ router.forwardEofAccounts client n

/-- An end is forwarded with the number that the client counted. -/
theorem dispatch_eofTransactions (count : ℕ) :
    router.dispatch client (.eofTransactions count)
      = some (router.forwardEofTransactions client count) :=
  congrArg (Option.map _) (pyInt_repr count)

theorem dispatch_eofAccounts (count : ℕ) :
    router.dispatch client (.eofAccounts count)
      = some (router.forwardEofAccounts client count) :=
  congrArg (Option.map _) (pyInt_repr count)

end InternalRouter

end MoneyLaundering
