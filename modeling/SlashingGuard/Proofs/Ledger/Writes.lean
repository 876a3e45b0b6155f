import SlashingGuard.Proofs.Ledger.Queries

/-! # What the writing steps do

    One equation-like lemma for each step that writes: which table is seen
    after it, under which condition it is refused, and where a call that fails
    may cut it.  A step that is refused has written nothing; a step that is
    cut behind its write has made the write. -/

namespace SlashingGuard.Ledger

open Transaction

variable {faulty : Prop} {v : Table Bytes} {E : LedgerError → Table Bytes → Prop}

/-! ## Records -/

theorem always_insertBlock {id : ValidatorId} {slot : Slot}
    {root : SigningRoot} {Q : Unit → Table Bytes → Prop}
    (unregistered : v.isRegistered id = false → E (.breach (.unregistered id)) v)
    (put : v.isRegistered id → (v.account id).block slot = none → Q () (v.putBlock id slot root))
    (again : v.isRegistered id → (v.account id).block slot = some root → Q () v)
    (taken : v.isRegistered id → ∀ signed, (v.account id).block slot = some signed →
      signed ≠ root → E (.breach (.takenSlot id slot signed root)) v)
    (fault : faulty → ∀ x, E (.store x) v) :
    Transaction.Always faulty (insertBlock id slot root) v Q E := by
  unfold insertBlock
  cases registered : v.isRegistered id with
  | false =>
    exact Always.query_bind_error (yields_requireRegistered_error registered) fault
      (unregistered registered)
  | true =>
    refine Always.query_bind (yields_requireRegistered registered) fault ?_
    refine Always.query_bind (yields_blockAt? v id slot) fault ?_
    cases stored : (v.account id).block slot with
    | none => exact always_put (put registered stored)
    | some signed =>
      simp only [Option.map_some]
      split
      · next differ => exact always_throw (taken registered signed stored differ)
      · next same =>
        have same : signed = root := by simpa using same
        exact always_pure (again registered (same ▸ stored))

theorem always_insertAttestation (legible : v.Legible) {id : ValidatorId} {vote : Vote}
    {root : SigningRoot} {Q : Unit → Table Bytes → Prop}
    (unregistered : v.isRegistered id = false → E (.breach (.unregistered id)) v)
    (disordered : v.isRegistered id → vote.target < vote.source →
      E (.breach (.sourceAfterTarget vote.source vote.target)) v)
    (put : v.isRegistered id → vote.source ≤ vote.target →
      (v.account id).vote vote.target = none → Q () (v.putVote id vote root))
    (again : v.isRegistered id → vote.source ≤ vote.target →
      (v.account id).vote vote.target = some (vote.source, root) → Q () v)
    (taken : v.isRegistered id → vote.source ≤ vote.target → ∀ source signed,
      (v.account id).vote vote.target = some (source, signed) →
      signed ≠ root ∨ source ≠ vote.source →
        E (.breach (.takenTarget id vote.target signed root)) v)
    (fault : faulty → ∀ x, E (.store x) v) :
    Transaction.Always faulty (insertAttestation id vote root) v Q E := by
  unfold insertAttestation
  cases registered : v.isRegistered id with
  | false =>
    exact Always.query_bind_error (yields_requireRegistered_error registered) fault
      (unregistered registered)
  | true =>
    refine Always.query_bind (yields_requireRegistered registered) fault ?_
    split
    · next lt => exact always_throw (disordered registered lt)
    · next notLt =>
      have ordered := UInt64.not_lt.1 notLt
      refine Always.query_bind (yields_attestationAt? legible id vote.target) fault ?_
      cases stored : (v.account id).vote vote.target with
      | none => exact always_put (put registered ordered stored)
      | some signed =>
        obtain ⟨source, signed⟩ := signed
        simp only [Option.map_some]
        split
        · next differ => exact always_throw (taken registered ordered source signed stored differ)
        · next same =>
          obtain ⟨rfl, rfl⟩ : signed = root ∧ source = vote.source := by simpa using same
          exact always_pure (again registered ordered stored)

/-! ## Floors -/

/-- A write that is made or not, and what follows either way. -/
theorem always_putIf {α : Type} {moves : Bool} {key value : Bytes} {next : Transaction α}
    {Q : α → Table Bytes → Prop}
    (h : Transaction.Always faulty next (if moves then v.insert key value else v) Q E) :
    Transaction.Always faulty (if moves then Transaction.put key value >>= fun _ => next else next)
      v Q E := by
  cases moves with
  | true => exact Always.bind (always_put h)
  | false => exact h

theorem always_raiseSlotFloor (legible : v.Legible) {id : ValidatorId} {slot : Slot}
    {Q : Watermark → Table Bytes → Prop}
    (unregistered : v.isRegistered id = false → E (.breach (.unregistered id)) v)
    (raised : v.isRegistered id → ∀ row : Watermark,
      row.slot = some (Floor.raised (v.account id).slotFloor slot) → Q row (v.raiseSlot id slot))
    (fault : faulty → ∀ x, E (.store x) v)
    (late : faulty → ∀ x, v.isRegistered id → E (.store x) (v.raiseSlot id slot)) :
    Transaction.Always faulty (raiseSlotFloor id slot) v Q E := by
  unfold raiseSlotFloor
  cases registered : v.isRegistered id with
  | false =>
    exact Always.query_bind_error (yields_requireRegistered_error registered) fault
      (unregistered registered)
  | true =>
    refine Always.query_bind (yields_requireRegistered registered) fault ?_
    refine Always.query_bind (yields_slotFloor? legible id) fault ?_
    -- Whether or not the floor moves, the row that is read back is that of the raised ledger.
    have row : Transaction.Always faulty (liftM (watermark id)) (v.raiseSlot id slot) Q E := by
      refine always_query (yields_watermark (legible.raiseSlot id slot) id) (fun b hb => ?_)
        (fun e he => by contradiction) fun f x => late f x registered
      obtain rfl := Except.ok.inj hb
      exact raised registered _ (by simp)
    show Transaction.Always faulty
      (if Floor.moves (v.account id).slotFloor slot then
        Transaction.put (Place.floor id .block).bytes
          (Bytes.ofWord ((Floor.raise (v.account id).slotFloor slot).getD slot)) >>=
            fun _ => liftM (watermark id)
      else liftM (watermark id)) v Q E
    rw [Floor.raise_eq, Option.getD_some]
    exact always_putIf row

theorem always_raiseEpochFloors (legible : v.Legible) {id : ValidatorId} {source target : Epoch}
    {Q : Watermark → Table Bytes → Prop}
    (unregistered : v.isRegistered id = false → E (.breach (.unregistered id)) v)
    (raised : v.isRegistered id → ∀ row : Watermark,
      row.target = some (Floor.raised (v.account id).targetFloor target) →
        Q row (v.raiseEpochs id source target))
    (fault : faulty → ∀ x, E (.store x) v)
    (late : faulty → ∀ x, v.isRegistered id → E (.store x) (v.raiseEpochs id source target)) :
    Transaction.Always faulty (raiseEpochFloors id source target) v Q E := by
  unfold raiseEpochFloors
  cases registered : v.isRegistered id with
  | false =>
    exact Always.query_bind_error (yields_requireRegistered_error registered) fault
      (unregistered registered)
  | true =>
    refine Always.query_bind (yields_requireRegistered registered) fault ?_
    refine Always.query_bind (yields_epochFloors? legible id) fault ?_
    have row :
        Transaction.Always faulty (liftM (watermark id)) (v.raiseEpochs id source target) Q E := by
      refine always_query (yields_watermark (legible.raiseEpochs id source target) id)
        (fun b hb => ?_) (fun e he => by contradiction) fun f x => late f x registered
      obtain rfl := Except.ok.inj hb
      exact raised registered _ (by simp [Account.targetFloor])
    show Transaction.Always faulty
      (if Floor.moves (v.account id).sourceFloor source ||
          Floor.moves (v.account id).targetFloor target then
        Transaction.put (Place.floor id .attestation).bytes
          (LedgerValue.writeEpochFloors
            ((Floor.raise (v.account id).sourceFloor source).getD source)
            ((Floor.raise (v.account id).targetFloor target).getD target)) >>=
              fun _ => liftM (watermark id)
      else liftM (watermark id)) v Q E
    rw [Floor.raise_eq, Floor.raise_eq, Option.getD_some, Option.getD_some]
    exact always_putIf row

/-! ## Deletions -/

/-- Deleting stops at the first number that stays, and so deletes what lies below the bound. -/
theorem always_deleteWhileBelow {family : KeyFamily} {id : ValidatorId}
    {entries : List (Entry Bytes)} (indexed : Entries.Indexed family id entries)
    (ascending : Entries.Ascending entries) (what : RecordKind) (bound : UInt64)
    {Q : Nat → Table Bytes → Prop}
    (h : Q (entries.filter fun entry => entry.1 < family.indexed id bound).length
      ((entries.filter fun entry => entry.1 < family.indexed id bound).foldl
        (fun t entry => t.erase entry.1) v)) :
    Transaction.Always faulty (deleteWhileBelow what bound entries) v Q E := by
  induction entries generalizing v Q with
  | nil => exact always_pure h
  | cons entry rest ih =>
    obtain ⟨key, value⟩ := entry
    obtain ⟨⟨n, key⟩, others⟩ := List.forall_mem_cons.1 indexed
    obtain ⟨head, tail⟩ := List.pairwise_cons.1 ascending
    obtain rfl : _ = family.indexed id n := key
    unfold deleteWhileBelow
    refine Always.bind (always_ofExcept (fun m hm => ?_) fun e he => ?_)
    · rw [LedgerKey.readIndex_indexed] at hm
      obtain rfl := Except.ok.inj hm
      split
      · next le =>
        -- The keys are ascending, so behind a number that stays all numbers stay.
        have stays : ∀ entry ∈ (family.indexed id n, value) :: rest,
            ¬ decide (entry.1 < family.indexed id bound) = true := by
          intro entry member below
          have lt := of_decide_eq_true below
          rcases List.mem_cons.1 member with rfl | member
          · exact UInt64.not_lt.2 le (LedgerKey.indexed_lt_indexed.1 lt)
          · exact UInt64.not_lt.2 le
              (LedgerKey.indexed_lt_indexed.1 (List.lt_trans (head entry member) lt))
        rw [List.filter_eq_nil_iff.2 stays] at h
        exact always_pure h
      · next notLe =>
        have goes : family.indexed id n < family.indexed id bound :=
          LedgerKey.indexed_lt_indexed.2 (UInt64.not_le.1 notLe)
        rw [List.filter_cons_of_pos (by simpa using goes)] at h
        exact Always.bind (always_delete (Always.bind (ih others tail (always_pure h))))
    · rw [LedgerKey.readIndex_indexed] at he
      contradiction

/-- Erasing the keys of a scan that lie below a bound is dropping what lies below it. -/
theorem foldl_erase_scan (t : Table Bytes) (family : KeyFamily) (id : ValidatorId)
    (bound : UInt64) :
    ((t.scan (family.scope id)).filter fun entry => entry.1 < family.indexed id bound).foldl
      (fun t entry => t.erase entry.1) t = t.dropBelow family id bound := by
  refine Table.ext_get? fun key => ?_
  have ascending := (Table.ascending_scan t (family.scope id)).filter
    fun entry => entry.1 < family.indexed id bound
  rw [Table.get?_foldl (fun _ => none) (fun t entry key => Table.get?_erase t entry.1 key)
    ascending, Table.get?_dropBelow, Entries.find?_filter fun key => key < family.indexed id bound,
    Table.scan_eq_filter, Entries.find?_filter fun key => (family.scope id).isPrefixOf key]
  rw [show Entries.find? key t.entries = t.get? key from rfl, Table.isBelow]
  by_cases scope : (family.scope id).isPrefixOf key <;>
    by_cases below : key < family.indexed id bound <;>
      cases t.get? key <;> simp [scope, below]

/-- What is deleted are the records below the bound, and they are counted. -/
theorem always_deleteBelow {family : KeyFamily} {id : ValidatorId}
    (indexed : Entries.Indexed family id (v.scan (family.scope id))) (what : RecordKind)
    (bound : UInt64) {Q : Nat → Table Bytes → Prop}
    (h : Q ((v.scan (family.scope id)).filter fun entry =>
      entry.1 < family.indexed id bound).length (v.dropBelow family id bound))
    (fault : faulty → ∀ x, E (.store x) v) :
    Transaction.Always faulty (deleteBelow family what id bound) v Q E := by
  refine Always.query_bind (Query.yields_scan _) fault ?_
  refine always_deleteWhileBelow indexed (Table.ascending_scan v _) what bound ?_
  rw [foldl_erase_scan]
  exact h

end SlashingGuard.Ledger
