import SlashingGuard.Proofs.Ledger.Leaving
import SlashingGuard.Proofs.Ledger.Session

/-! # Values that are read back

    Attestations and epoch floors say where they end: before the bytes of a
    root stands how many they are, and floors are two words.  Such a value is
    read from the bytes that begin with it, whatever follows, and from no
    others.  Bytes that break off within a value are refused, so damage never
    shows as a shorter root.  A slot floor, the number of a validator and the
    counter take eight bytes, and neither fewer nor more are read.

    The queries of a ledger answer what is read at their places, and a refusal
    is their error. -/

namespace SlashingGuard

namespace LedgerValue

/-! ## Values that say where they end -/

/-- How the values that fit are read where each of them says where it ends. -/
structure Delimited {α : Type} (what : RecordKind) (write : α → Bytes) (fits : α → Prop)
    (read : Bytes → Except LedgerError α) : Prop where
  /-- A value is read from the bytes that begin with it, whatever follows, and from no others. -/
  accepted : ∀ bytes a, read bytes = .ok a ↔ fits a ∧ write a <+: bytes
  /-- What is refused is a value that is cut short, and each such is. -/
  refused : ∀ bytes e, read bytes = .error e ↔
    e = .corrupt what .truncated ∧ ∃ a, fits a ∧ bytes <+: write a ∧ bytes ≠ write a

/-- It is enough to know what is accepted, and that whatever is refused begins some value. -/
theorem Delimited.of_accepted {α : Type} {what : RecordKind} {write : α → Bytes} {fits : α → Prop}
    {read : Bytes → Except LedgerError α}
    (accepted : ∀ bytes a, read bytes = .ok a ↔ fits a ∧ write a <+: bytes)
    (refused : ∀ bytes e, read bytes = .error e →
      e = .corrupt what .truncated ∧ ∃ a, fits a ∧ bytes <+: write a) :
    Delimited what write fits read where
  accepted := accepted
  refused bytes e := by
    have whole : ∀ a, fits a → read (write a) = .ok a :=
      fun a fit => (accepted (write a) a).2 ⟨fit, List.prefix_refl _⟩
    constructor
    · intro h
      obtain ⟨truncated, a, fit, part⟩ := refused bytes e h
      refine ⟨truncated, a, fit, part, ?_⟩
      rintro rfl
      rw [whole a fit] at h
      contradiction
    · rintro ⟨rfl, a, fit, part, differ⟩
      cases result : read bytes with
      | error e => rw [(refused bytes e result).1]
      | ok b =>
        -- A value that begins the cut one begins the whole one too, so it is read from both.
        obtain ⟨fit', begins⟩ := (accepted bytes b).1 result
        have other : read (write a) = .ok b := (accepted (write a) b).2 ⟨fit', begins.trans part⟩
        obtain rfl : a = b := Except.ok.inj ((whole a fit).symm.trans other)
        have length := Nat.le_antisymm part.length_le begins.length_le
        exact absurd (part.eq_of_length length) differ

/-- Where there are not two words, taking the first fails or taking the second. -/
theorem takeWord_of_short (what : RecordKind) {bytes : Bytes} (h : bytes.length < 16) :
    takeWord what bytes = .error (.corrupt what .truncated) ∨
      ∃ first rest, takeWord what bytes = .ok (first, rest) ∧
        takeWord what rest = .error (.corrupt what .truncated) := by
  by_cases none : bytes.length < 8
  · left
    rw [takeWord, if_pos none]
  · right
    have few : (bytes.drop 8).length < 8 := by
      rw [List.length_drop]
      omega
    refine ⟨_, _, if_neg none, ?_⟩
    rw [takeWord, if_pos few]

/-! ### Epoch floors -/

theorem readEpochFloors_of_short {bytes : Bytes} (h : bytes.length < 16) :
    readEpochFloors bytes = .error (.corrupt .epochFloors .truncated) := by
  rcases takeWord_of_short .epochFloors h with first | ⟨source, rest, first, second⟩
  · simp only [readEpochFloors, first, bind, Except.bind]
  · simp only [readEpochFloors, first, second, bind, Except.bind]

theorem delimited_epochFloors :
    Delimited .epochFloors (fun floors : Epoch × Epoch => writeEpochFloors floors.1 floors.2)
      (fun _ => True) readEpochFloors := by
  apply Delimited.of_accepted
  · intro bytes floors
    constructor
    · intro h
      rcases bytes.two_words with ⟨source, target, rest, rfl⟩ | ⟨few, -⟩
      · have whole := readEpochFloors_append source target rest
        rw [writeEpochFloors, List.append_assoc, h] at whole
        obtain rfl := Except.ok.inj whole
        exact ⟨trivial, rest, List.append_assoc _ _ _⟩
      · rw [readEpochFloors_of_short few] at h
        contradiction
    · rintro ⟨-, rest, rfl⟩
      exact readEpochFloors_append floors.1 floors.2 rest
  · intro bytes e h
    rcases bytes.two_words with ⟨source, target, rest, rfl⟩ | ⟨few, source, target, begins⟩
    · have whole := readEpochFloors_append source target rest
      rw [writeEpochFloors, List.append_assoc, h] at whole
      contradiction
    · rw [readEpochFloors_of_short few] at h
      exact ⟨(Except.error.inj h).symm, (source, target), trivial, begins⟩

/-! ### Attestations -/

theorem readAttestation_words (source n : UInt64) (body : Bytes) :
    readAttestation (Bytes.ofWordReversed source ++ (Bytes.ofWordReversed n ++ body)) =
      if body.length < n.toNat then .error (.corrupt .attestation .truncated)
      else .ok (source, ⟨body.take n.toNat⟩) := by
  simp only [readAttestation, takeWord_ofWordReversed, bind, Except.bind]
  rfl

theorem readAttestation_of_short {bytes : Bytes} (h : bytes.length < 16) :
    readAttestation bytes = .error (.corrupt .attestation .truncated) := by
  rcases takeWord_of_short .attestation h with first | ⟨source, rest, first, second⟩
  · simp only [readAttestation, first, bind, Except.bind]
  · simp only [readAttestation, first, second, bind, Except.bind]

/-- The value of an attestation whose root has as many bytes as a word says. -/
theorem writeAttestation_of_length {source n : UInt64} {body : Bytes}
    (h : body.length = n.toNat) :
    writeAttestation source ⟨body⟩ =
      Bytes.ofWordReversed source ++ (Bytes.ofWordReversed n ++ body) := by
  rw [writeAttestation_eq, h, UInt64.ofNat_toNat]

/-- An attestation is read from the bytes that begin with it. -/
theorem readAttestation_eq_ok_iff {bytes : Bytes} {value : Epoch × SigningRoot} :
    readAttestation bytes = .ok value ↔
      value.2.bytes.length < 2 ^ 64 ∧ writeAttestation value.1 value.2 <+: bytes := by
  constructor
  · intro h
    rcases bytes.two_words with ⟨source, n, body, rfl⟩ | ⟨few, -⟩
    · rw [readAttestation_words] at h
      split at h
      · contradiction
      · next enough =>
        obtain rfl := Except.ok.inj h
        have length : (body.take n.toNat).length = n.toNat := by
          rw [List.length_take]
          omega
        refine ⟨?_, body.drop n.toNat, ?_⟩
        · show (body.take n.toNat).length < 2 ^ 64
          rw [length]
          exact n.toNat_lt
        · rw [writeAttestation_of_length length, List.append_assoc, List.append_assoc,
            List.take_append_drop]
    · rw [readAttestation_of_short few] at h
      contradiction
  · rintro ⟨fits, rest, rfl⟩
    rw [readAttestation_append, SigningRoot.stored_eq fits]

/-- Bytes from which none is read are the beginning of one, up to its numbers or within its root. -/
theorem exists_attestation_of_refused {bytes : Bytes} {e : LedgerError}
    (h : readAttestation bytes = .error e) :
    e = .corrupt .attestation .truncated ∧ ∃ (source n : UInt64) (body : Bytes),
      body.length = n.toNat ∧ bytes <+: writeAttestation source ⟨body⟩ := by
  rcases bytes.two_words with ⟨source, n, body, rfl⟩ | ⟨few, source, n, begins⟩
  · rw [readAttestation_words] at h
    split at h
    · next short =>
      -- What is missing of the root may be any bytes.
      obtain ⟨filled, length, begins⟩ := Bytes.exists_filled (Nat.le_of_lt short)
      refine ⟨(Except.error.inj h).symm, source, n, filled, length, ?_⟩
      rw [writeAttestation_of_length length, List.prefix_append_right_inj,
        List.prefix_append_right_inj]
      exact begins
    · contradiction
  · rw [readAttestation_of_short few] at h
    obtain ⟨root, length, -⟩ := @Bytes.exists_filled [] n.toNat (Nat.zero_le _)
    refine ⟨(Except.error.inj h).symm, source, n, root, length, begins.trans ?_⟩
    rw [writeAttestation_of_length length, ← List.append_assoc]
    exact List.prefix_append _ _

theorem delimited_attestation :
    Delimited .attestation (fun value : Epoch × SigningRoot => writeAttestation value.1 value.2)
      (fun value => value.2.bytes.length < 2 ^ 64) readAttestation := by
  apply Delimited.of_accepted
  · intro bytes value
    exact readAttestation_eq_ok_iff
  · intro bytes e h
    obtain ⟨truncated, source, n, body, length, begins⟩ := exists_attestation_of_refused h
    refine ⟨truncated, (source, ⟨body⟩), ?_, begins⟩
    show body.length < 2 ^ 64
    rw [length]
    exact n.toNat_lt

end LedgerValue

/-! ## Numbers of eight bytes -/

/-- How a number of some kind is read: from the eight bytes that are written for it. -/
structure LedgerKey.EightBytes (what : RecordKind) : Prop where
  accepted : ∀ bytes n, readWord what bytes = .ok n ↔ bytes = Bytes.ofWord n
  readable : ∀ bytes, (∃ n, readWord what bytes = .ok n) ↔ bytes.length = 8
  refused : ∀ bytes e, readWord what bytes = .error e ↔
    bytes.length ≠ 8 ∧ e = .corrupt what (.wrongLength bytes.length)

theorem LedgerKey.eightBytes (what : RecordKind) : EightBytes what where
  accepted bytes n := readWord_eq_ok_iff
  readable bytes := by
    constructor
    · rintro ⟨n, read⟩
      rw [readWord_eq_ok_iff.1 read, Bytes.length_ofWord]
    · intro length
      exact ⟨_, readWord_eq_ok_iff.2 (Bytes.ofWord_ofBigEndian length).symm⟩
  refused bytes e := readWord_eq_error_iff

/-! ## What queries answer -/

/-- Reading on and then turning what was read into something else. -/
theorem Table.tryRead_map {α β : Type} (v : Table Bytes) (place : Place)
    (read : Bytes → Except LedgerError α) (f : α → β) :
    v.tryRead place (fun bytes => (read bytes).map f) =
      (v.tryRead place read).map (Option.map f) := by
  unfold tryRead
  cases v.get? place.bytes with
  | none => rfl
  | some bytes =>
    show ((read bytes).map f).map some = ((read bytes).map some).map (Option.map f)
    cases read bytes <;> rfl

namespace Session

open Ledger

/-- The queries of a session answer what is read of the values that it sees, refusals included; and
    a vote that is put in is written as its source and its root. -/
structure AnswersAsRead (s : Session) : Prop where
  attestationAt : ∀ id target, s.ask (attestationAt? id target) =
    ((s.seen.tryRead (.attestation id target) LedgerValue.readAttestation).map
      (Option.map fun value => ⟨id, value.1, target, value.2⟩), s)
  epochFloors : ∀ id, s.ask (epochFloors? id) =
    (s.seen.tryRead (.floor id .attestation) LedgerValue.readEpochFloors, s)
  slotFloor : ∀ id, s.ask (slotFloor? id) =
    (s.seen.tryRead (.floor id .block) (LedgerKey.readWord .slotFloor), s)
  idOf : ∀ key, s.ask (idOf? key) =
    ((s.seen.tryRead (.idOf key) (LedgerKey.readWord .validator)).map
      (Option.map ValidatorId.mk), s)
  nextId : s.ask nextId =
    ((s.seen.tryRead .nextId (LedgerKey.readWord .nextId)).map fun stored => stored.getD 1, s)
  inserted : ∀ id (vote : Vote) root, s.seen.isRegistered id → vote.source ≤ vote.target →
    s.seen.get? (Place.attestation id vote.target).bytes = none →
      s.take (.call (.insertAttestation id vote root)) =
        (.ok 0, ⟨s.table, s.pending.insert (Place.attestation id vote.target).bytes
          (some (LedgerValue.writeAttestation vote.source root))⟩)

/-- A call that surely ends in a value and leaves certain writes is answered by the value. -/
theorem take_of_leaves {s : Session} {c : RecordCall} {n : Nat} {q : Pending}
    (h : Transaction.Leaves False c.perform s.table s.pending (fun m p => m = n ∧ p = q)
      fun _ _ => False) :
    s.take (.call c) = (.ok n, ⟨s.table, q⟩) := by
  have ran := h.run_serve
  generalize out : (c.perform.run.run s.pending).run Table.serve s.table = result at ran
  obtain ⟨⟨answer, p⟩, t⟩ := result
  have taken : s.take (.call c) = (answer, ⟨t, p⟩) := by
    simp only [take, out]
  rw [taken]
  cases answer with
  | error e => exact ran.2.elim
  | ok m =>
    obtain ⟨rfl, rfl, rfl⟩ := ran
    rfl

/-- A vote is put in where its target is free. -/
theorem take_insertAttestation {s : Session} {id : ValidatorId} {vote : Vote} (root : SigningRoot)
    (registered : s.seen.isRegistered id) (ordered : vote.source ≤ vote.target)
    (free : s.seen.get? (Place.attestation id vote.target).bytes = none) :
    s.take (.call (.insertAttestation id vote root)) =
      (.ok 0, ⟨s.table, s.pending.insert (Place.attestation id vote.target).bytes
        (some (LedgerValue.writeAttestation vote.source root))⟩) := by
  have known : (requireRegistered id).Yields s.seen (.ok ()) := yields_requireRegistered registered
  have absent : (attestationAt? id vote.target).Yields s.seen (.ok none) := by
    have read := yields_tryRead s.seen (.attestation id vote.target) (ofValue id vote.target)
    rwa [Table.tryRead, free] at read
  apply take_of_leaves
  refine Transaction.Leaves.bind (Transaction.leaves_query_bind known ?_ ?_ ?_)
  · intro _ _
    rw [if_neg (UInt64.not_lt.2 ordered)]
    refine Transaction.leaves_query_bind absent ?_ ?_ ?_
    · intro found read
      obtain rfl := Except.ok.inj read
      exact Transaction.leaves_put ⟨rfl, rfl, rfl⟩
    · intro e read
      contradiction
    · intro fails
      exact fails.elim
  · intro e read
    contradiction
  · intro fails
    exact fails.elim

theorem answersAsRead (s : Session) : s.AnswersAsRead where
  attestationAt id target := by
    rw [← Table.tryRead_map]
    exact ask_of_yields (yields_tryRead s.seen (.attestation id target) (ofValue id target))
  epochFloors id :=
    ask_of_yields (yields_tryRead s.seen (.floor id .attestation) LedgerValue.readEpochFloors)
  slotFloor id :=
    ask_of_yields (yields_tryRead s.seen (.floor id .block) (LedgerKey.readWord .slotFloor))
  idOf key := by
    rw [← Table.tryRead_map]
    exact ask_of_yields (yields_tryRead s.seen (.idOf key) fun bytes =>
      (LedgerKey.readWord .validator bytes).map ValidatorId.mk)
  nextId :=
    ask_of_yields ((yields_tryRead s.seen .nextId (LedgerKey.readWord .nextId)).map fun stored =>
      stored.getD 1)
  inserted _ _ root registered ordered free := take_insertAttestation root registered ordered free

end Session

/-! ## Reading back -/

/-- Attestations and epoch floors are read from what begins with them and refused where they are
    cut short, numbers are read from eight bytes, and the ledger answers what is read. -/
theorem stored_values_read_back :
    LedgerValue.Delimited .attestation
        (fun value : Epoch × SigningRoot => LedgerValue.writeAttestation value.1 value.2)
        (fun value => value.2.bytes.length < 2 ^ 64) LedgerValue.readAttestation ∧
      LedgerValue.Delimited .epochFloors
        (fun floors : Epoch × Epoch => LedgerValue.writeEpochFloors floors.1 floors.2)
        (fun _ => True) LedgerValue.readEpochFloors ∧
      (∀ what, LedgerKey.EightBytes what) ∧
      ∀ s : Session, s.AnswersAsRead := by
  refine ⟨LedgerValue.delimited_attestation, LedgerValue.delimited_epochFloors,
    LedgerKey.eightBytes, ?_⟩
  intro s
  exact s.answersAsRead

/-- A root of three bytes: it is read where two more follow, and the validator has no attestation
    that can be read where the last of its bytes is missing. -/
theorem stored_values_read_back_shortRoot :
    let id : ValidatorId := ⟨1⟩
    let root : SigningRoot := ⟨[7, 8, 9]⟩
    let value := LedgerValue.writeAttestation 5 root
    let cut : Session :=
      ⟨Table.empty.insert (Place.attestation id 6).bytes value.dropLast, Table.empty⟩
    let fresh : Session := ⟨Table.empty.enroll ⟨[1]⟩ 1, Table.empty⟩
    LedgerValue.readAttestation (value ++ [0, 4]) = .ok (5, root) ∧
      cut.ask (Ledger.attestationAt? id 6) =
        (.error (.corrupt .attestation .truncated), cut) ∧
      LedgerKey.readWord .slotFloor [0, 0, 0, 0, 0, 0, 7] =
        .error (.corrupt .slotFloor (.wrongLength 7)) ∧
      fresh.take (.call (.insertAttestation id ⟨5, 6⟩ root)) =
        (.ok 0, ⟨fresh.table, Table.empty.insert (Place.attestation id 6).bytes (some value)⟩) := by
  intro id root value cut fresh
  obtain ⟨attestations, -, numbers, answers⟩ := stored_values_read_back
  have fits : root.bytes.length < 2 ^ 64 := by decide
  have refused : LedgerValue.readAttestation value.dropLast =
      .error (.corrupt .attestation .truncated) := by
    refine (attestations.refused value.dropLast _).2 ⟨rfl, (5, root), fits, ?_, by decide⟩
    exact List.dropLast_prefix value
  refine ⟨?_, ?_, ?_, ?_⟩
  · exact (attestations.accepted (value ++ [0, 4]) (5, root)).2 ⟨fits, List.prefix_append _ _⟩
  · rw [(answers cut).attestationAt]
    have seen : cut.seen.get? (Place.attestation id 6).bytes = some value.dropLast := by
      decide +kernel
    rw [Table.tryRead, seen]
    show (((LedgerValue.readAttestation value.dropLast).map some).map _, cut) = _
    rw [refused]
    rfl
  · exact ((numbers .slotFloor).refused _ _).2 ⟨by decide, rfl⟩
  · exact (answers fresh).inserted id ⟨5, 6⟩ root (by decide +kernel) (by decide)
      (by decide +kernel)

end SlashingGuard
