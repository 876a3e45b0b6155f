import SlashingGuard.Proofs.Interchange.Contents
import SlashingGuard.Proofs.Interchange.Export

/-! # What an export writes

    An export of a legible ledger writes the pretty form of the ledger's
    document, and then finishes the sink.  It is put together from tokens, one
    history after the other, and these are the tokens of the document, also
    when there is no history at all.

    It may be cut off before it has written them all: by a read that fails, or
    by a sink that has no room for the next of them.  What the sink has then is
    a beginning of the text. -/

namespace SlashingGuard

variable {α β : Type} {may : Prop} {c : Context} {t : Table Bytes}

/-! ## Tokens -/

namespace Interchange

/-- The tokens of histories, one after the other. -/
def entries (first : Bool) : List History → List String
  | [] => []
  | history :: rest => entry first history ++ entries false rest

/-- The items of the array of histories. -/
theorem prettyItems_histories (first : Bool) (histories : List History) :
    Json.prettyItems 1 first (histories.map History.toJson) =
      entries first histories ++ (Json.lineStart 1 ++ ["]"]) := by
  induction histories generalizing first with
  | nil => rfl
  | cons history rest ih =>
    rw [List.map_cons, Json.prettyItems, ih, entries, entry]
    simp only [List.append_assoc]

/-- The array of histories, which has no lines of its own if it is empty. -/
theorem prettyTokens_histories (histories : List History) :
    Json.prettyTokens 1 (.array (histories.map History.toJson)) =
      "[" :: (entries true histories ++
        ((if !histories.isEmpty then Json.lineStart 1 else []) ++ ["]"])) := by
  cases histories with
  | nil => rfl
  | cons history rest =>
    -- Behind the last of some items the closing bracket has a line of its own.
    rw [List.map_cons, Json.prettyTokens, ← List.map_cons, prettyItems_histories]
    · rfl
    · nofun

/-- The tokens that are written are those of the document. -/
theorem tokens_document (d : Document) :
    opening d.metadata ++ (entries true d.histories ++ closing (!d.histories.isEmpty)) =
      Json.prettyTokens 0 d.toJson := by
  rw [Document.toJson, Json.prettyTokens]
  · simp only [Json.prettyMembers, Json.prettyMember, Nat.zero_add, prettyTokens_histories,
      opening, closing, List.append_assoc, List.cons_append, List.nil_append]
  · nofun

end Interchange

/-! ## What a sink takes -/

namespace Sink

/-- A sink took a text, which used up some of its room. -/
structure Took (s : Sink) (text : String) (s' : Sink) : Prop where
  accepted : s'.accepted = s.accepted ++ text
  room : s.room = s'.room.map fun limit => (limit.1 + text.utf8ByteSize, limit.2)
  flushFault : s'.flushFault = s.flushFault

/-- A sink has no room for a text, of which it says `fault`. -/
def Lacks (s : Sink) (text : String) (fault : IoError) : Prop :=
  ∃ room, s.room = some (room, fault) ∧ room < text.utf8ByteSize

variable {s s' s'' : Sink} {text more : String} {fault : IoError}

theorem took_empty (s : Sink) : s.Took "" s := by
  refine ⟨String.append_empty.symm, ?_, rfl⟩
  cases s.room <;> rfl

theorem Took.trans (h : s.Took text s') (h' : s'.Took more s'') : s.Took (text ++ more) s'' := by
  refine ⟨?_, ?_, h'.flushFault.trans h.flushFault⟩
  · rw [h'.accepted, h.accepted, String.append_assoc]
  · rw [h.room, h'.room, Option.map_map, String.utf8ByteSize_append]
    congr 1
    funext limit
    exact Prod.ext (by simp only [Function.comp_apply]; omega) rfl

/-- Where there was no room left for the rest there was none for the whole. -/
theorem Took.lacks (h : s.Took text s') (short : s'.Lacks more fault) :
    s.Lacks (text ++ more) fault := by
  obtain ⟨room, limited, less⟩ := short
  refine ⟨room + text.utf8ByteSize, by rw [h.room, limited]; rfl, ?_⟩
  rw [String.utf8ByteSize_append]
  omega

/-- There was room for what was taken. -/
theorem Took.not_lacks (h : s.Took text s') (fault : IoError) : ¬ s.Lacks text fault := by
  rintro ⟨room, limited, less⟩
  rw [h.room, Option.map_eq_some_iff] at limited
  obtain ⟨limit, -, same⟩ := limited
  obtain rfl : limit.1 + text.utf8ByteSize = room := congrArg Prod.fst same
  omega

theorem Lacks.append (h : s.Lacks text fault) (more : String) : s.Lacks (text ++ more) fault := by
  obtain ⟨room, limited, less⟩ := h
  refine ⟨room, limited, ?_⟩
  rw [String.utf8ByteSize_append]
  omega

/-- A sink says the same of its room whatever it is too small for. -/
theorem Lacks.fault_eq {fault' : IoError} (h : s.Lacks text fault) (h' : s.Lacks more fault') :
    fault = fault' := by
  obtain ⟨room, limited, -⟩ := h
  obtain ⟨room', limited', -⟩ := h'
  rw [limited, Option.some.injEq, Prod.mk.injEq] at limited'
  exact limited'.2

/-- A token is taken, or there is no room for it. -/
theorem write_cases (s : Sink) (token : String) :
    (∃ s', s.write token = (.ok (), s') ∧ s.Took token s') ∨
      ∃ fault, s.write token = (.error fault, s) ∧ s.Lacks token fault := by
  unfold write
  split
  · next unlimited => exact .inl ⟨_, rfl, rfl, by rw [unlimited]; rfl, rfl⟩
  · next room fault limited =>
    split
    · next enough =>
      refine .inl ⟨_, rfl, rfl, ?_, rfl⟩
      rw [limited]
      exact congrArg (fun n => some (n, fault)) (Nat.sub_add_cancel enough).symm
    · next short => exact .inr ⟨fault, rfl, room, limited, Nat.lt_of_not_le short⟩

/-- Tokens are taken, or only those before one for which there is no room. -/
theorem writeAll_ends (s : Sink) (tokens : List String) :
    (∃ s', s.writeAll tokens = (.ok (), s') ∧ s.Took (String.join tokens) s') ∨
      ∃ fault s' written rest, s.writeAll tokens = (.error fault, s') ∧
        String.join tokens = written ++ rest ∧ s.Took written s' ∧ s'.Lacks rest fault := by
  induction tokens generalizing s with
  | nil => exact .inl ⟨s, rfl, took_empty s⟩
  | cons token rest ih =>
    unfold writeAll
    rw [String.join_cons]
    rcases write_cases s token with ⟨s', written, took⟩ | ⟨fault, refused, lacks⟩
    · rw [written]
      rcases ih s' with ⟨s'', all, took'⟩ | ⟨fault, s'', front, back, refused, cut, took', lacks⟩
      · exact .inl ⟨s'', all, took.trans took'⟩
      · refine .inr ⟨fault, s'', token ++ front, back, refused, ?_, took.trans took', lacks⟩
        rw [cut, String.append_assoc]
    · rw [refused]
      exact .inr ⟨fault, s, "", token ++ String.join rest, rfl, String.empty_append.symm,
        took_empty s, lacks.append _⟩

/-- How finishing a sink ends. -/
def finished (s : Sink) : Except GuardError Unit :=
  match s.flushFault with
  | none => .ok ()
  | some fault => .error (.output fault.message)

theorem finished_eq_ok : s.finished = .ok () ↔ s.flushFault = none := by
  unfold finished
  cases s.flushFault <;> simp

theorem finished_eq_error (h : s.flushFault = some fault) :
    s.finished = .error (.output fault.message) := by
  rw [finished, h]

theorem finished_ne_ledger (s : Sink) (e : LedgerError) : s.finished ≠ .error (.ledger e) := by
  unfold finished
  cases s.flushFault <;> nofun

theorem Took.finished (h : s.Took text s') : s'.finished = s.finished := by
  unfold Sink.finished
  rw [h.flushFault]

end Sink

/-! ## Work that reads -/

namespace GuardWork

/-- The work gives `a`, or fails with an error of the ledger, if reads `may` fail.  It leaves the
    guard and the ledger as they are. -/
def Reads (may : Prop) (w : GuardWork α) (c : Context) (t : Table Bytes) (a : α) : Prop :=
  Always may w c t fun r c' t' =>
    (r = .ok a ∨ may ∧ ∃ e, r = .error (.ledger e)) ∧ c' = c ∧ t' = t

theorem reads_theGuard : theGuard.Reads may c t c.guard := ⟨.inl rfl, rfl, rfl⟩

theorem reads_readNow {q : Query α} {a : α} (h : q.Yields t (.ok a)) :
    (Interchange.readNow q).Reads may c t a := by
  apply always_ledger.2
  refine h may t Table.empty _ rfl ⟨.inl rfl, rfl, rfl⟩ fun fails x => ?_
  exact ⟨.inr ⟨fails, .store x, rfl⟩, rfl, rfl⟩

/-- A lock that is held counts as a read that fails. -/
theorem Reads.withLock {w : GuardWork α} {lock : LockName} {a : α}
    (free : lock ∈ c.guard.held → may) (h : w.Reads may (holding c lock) t a) :
    (withLock lock w).Reads may c t a := by
  by_cases held : lock ∈ c.guard.held
  · exact always_withLock_held held ⟨.inr ⟨free held, _, rfl⟩, rfl, rfl⟩
  · refine always_withLock held (h.mono ?_)
    rintro r c' t' ⟨ends, rfl, same⟩
    exact ⟨ends, freed_holding c lock, same⟩

end GuardWork

namespace Interchange

theorem yields_historyOf (legible : t.Legible) (id : ValidatorId) (key : PublicKey) :
    (historyOf id key).Yields t (.ok (historyIn t id key)) :=
  (Ledger.yields_blocks legible id).bind ((Ledger.yields_attestations legible id).bind
    ((Ledger.yields_watermark? legible id).bind (Query.yields_pure _)))

/-- Both locks are free: the second is not the first. -/
theorem reads_loadHistory (legible : t.Legible) {id : ValidatorId}
    (free : may ∨ c.guard.Frees id) (key : PublicKey) :
    (loadHistory id key).Reads may c t (historyIn t id key) := by
  refine .withLock (fun held => ?_) (.withLock (fun held => ?_)
    (GuardWork.reads_readNow (yields_historyOf legible id key)))
  · exact free.resolve_right fun frees => frees _ held
  · have other : (id, DutyKind.attestation) ≠ (id, .block) := nofun
    exact free.resolve_right fun frees => frees _ ((List.mem_cons.1 held).resolve_left other)

end Interchange

/-! ## Work that writes -/

/-- Work that had to write a text to a sink was cut off, with an error and what the sink is then. -/
inductive CutOff (may : Prop) (s : Sink) (text : String) : GuardError → Sink → Prop where
  /-- A read failed, as reads `may`. -/
  | unread {e : LedgerError} {s' : Sink} {written rest : String} :
    may → text = written ++ rest → s.Took written s' → CutOff may s text (.ledger e) s'
  /-- The sink had no room for the rest. -/
  | refused {fault : IoError} {s' : Sink} {written rest : String} :
    text = written ++ rest → s.Took written s' → s'.Lacks rest fault →
      CutOff may s text (.interchange fault.message) s'

namespace CutOff

variable {s s' s'' : Sink} {text : String} {e : GuardError}

theorem mono {may' : Prop} (h : CutOff may s text e s') (imp : may → may') :
    CutOff may' s text e s' := by
  cases h with
  | unread fails cut took => exact .unread (imp fails) cut took
  | refused cut took lacks => exact .refused cut took lacks

/-- More would have come behind. -/
theorem append (h : CutOff may s text e s') (more : String) : CutOff may s (text ++ more) e s' := by
  cases h with
  | unread fails cut took => exact .unread fails (by rw [cut, String.append_assoc]) took
  | refused cut took lacks =>
    exact .refused (by rw [cut, String.append_assoc]) took (lacks.append more)

/-- Something came before, and was taken. -/
theorem behind {front : String} (took : s.Took front s') (h : CutOff may s' text e s'') :
    CutOff may s (front ++ text) e s'' := by
  cases h with
  | unread fails cut took' =>
    exact .unread fails (by rw [cut, String.append_assoc]) (took.trans took')
  | refused cut took' lacks =>
    exact .refused (by rw [cut, String.append_assoc]) (took.trans took') lacks

end CutOff

namespace ExportWork

/-- The work writes tokens and ends as `Q` says of its result and the sink, or it is cut off; reads
    `may` fail.  It leaves the guard and the ledger as they are. -/
def Streams (may : Prop) (w : ExportWork α) (c : Context) (t : Table Bytes) (tokens : List String)
    (Q : Except GuardError α → Sink → Prop) : Prop :=
  ∀ s, Always may w s c t fun r s' c' t' =>
    (s.Took (String.join tokens) s' ∧ Q r s' ∨
      ∃ e, r = .error e ∧ CutOff may s (String.join tokens) e s') ∧ c' = c ∧ t' = t

theorem streams_pure (a : α) : (pure a : ExportWork α).Streams may c t [] fun r _ => r = .ok a :=
  fun s => ⟨.inl ⟨s.took_empty, rfl⟩, rfl, rfl⟩

theorem Streams.bind {w : ExportWork α} {k : α → ExportWork β} {tokens more : List String} {a : α}
    {Q : Except GuardError β → Sink → Prop} (hw : w.Streams may c t tokens fun r _ => r = .ok a)
    (hk : (k a).Streams may c t more Q) : (w >>= k).Streams may c t (tokens ++ more) Q := by
  intro s
  show Program.Always may (Program.bind ((w.run.run s).run c) _) t _
  rw [Program.always_bind, String.join_append]
  refine (hw s).mono ?_
  rintro ⟨⟨r, s'⟩, c'⟩ t' ⟨⟨took, rfl⟩ | ⟨e, rfl, cut⟩, rfl, rfl⟩
  · refine (hk s').mono ?_
    rintro ⟨⟨r, s''⟩, c''⟩ t'' ⟨⟨took', ends⟩ | ⟨e, rfl, cut⟩, same⟩
    · exact ⟨.inl ⟨took.trans took', ends⟩, same⟩
    · exact ⟨.inr ⟨e, rfl, cut.behind took⟩, same⟩
  · exact ⟨.inr ⟨e, rfl, cut.append _⟩, rfl, rfl⟩

theorem streams_ofGuard {w : GuardWork α} {a : α} (h : w.Reads may c t a) :
    (ofGuard w).Streams may c t [] fun r _ => r = .ok a := by
  intro s
  show Program.Always may (Program.bind (w.run.run c) _) t _
  rw [Program.always_bind]
  refine Program.Always.mono h ?_
  rintro ⟨r, c'⟩ t' ⟨rfl | ⟨fails, e, rfl⟩, rfl, rfl⟩
  · exact ⟨.inl ⟨s.took_empty, rfl⟩, rfl, rfl⟩
  · exact ⟨.inr ⟨_, rfl, .unread fails String.empty_append.symm s.took_empty⟩, rfl, rfl⟩

theorem streams_emit (tokens : List String) :
    (emit tokens).Streams may c t tokens fun r _ => r = .ok () := by
  intro s
  refine ⟨?_, rfl, rfl⟩
  change s.Took _ (s.writeAll tokens).2 ∧ (s.writeAll tokens).1.mapError _ = .ok () ∨
    ∃ e, (s.writeAll tokens).1.mapError _ = .error e ∧ CutOff may s _ e (s.writeAll tokens).2
  rcases s.writeAll_ends tokens with
    ⟨s', all, took⟩ | ⟨fault, s', front, back, short, cut, took, lacks⟩
  · rw [all]
    exact .inl ⟨took, rfl⟩
  · rw [short]
    exact .inr ⟨_, rfl, .refused cut took lacks⟩

theorem streams_flush : flush.Streams may c t [] fun r s => r = s.finished := by
  intro s
  obtain ⟨accepted, room, _ | fault⟩ := s
  · exact ⟨.inl ⟨Sink.took_empty _, rfl⟩, rfl, rfl⟩
  · exact ⟨.inl ⟨Sink.took_empty _, rfl⟩, rfl, rfl⟩

end ExportWork

namespace Interchange

open ExportWork

/-- The tokens of the document of a ledger, cut where an export stops to read the next history. -/
theorem tokens_exported (t : Table Bytes) (genesisRoot : SigningRoot) :
    opening (Metadata.current genesisRoot) ++
        (entries true (t.validators.map fun v => historyIn t v.1 v.2) ++
          (closing (!t.validators.isEmpty) ++ [])) =
      Json.prettyTokens 0 (documentOf t genesisRoot).toJson := by
  have isEmpty : (documentOf t genesisRoot).histories.isEmpty = t.validators.isEmpty :=
    List.isEmpty_map
  rw [List.append_nil, ← tokens_document, isEmpty]
  rfl

theorem streams_emitHistories (legible : t.Legible) (first : Bool)
    (validators : List (ValidatorId × PublicKey))
    (free : may ∨ ∀ v ∈ validators, c.guard.Frees v.1) :
    (emitHistories first validators).Streams may c t
      (entries first (validators.map fun v => historyIn t v.1 v.2)) fun r _ => r = .ok () := by
  induction validators generalizing first with
  | nil => exact streams_pure ()
  | cons validator rest ih =>
    have here : may ∨ c.guard.Frees validator.1 := free.imp_right fun all => all _ (.head rest)
    have later : may ∨ ∀ v ∈ rest, c.guard.Frees v.1 :=
      free.imp_right fun all v member => all v (.tail _ member)
    have loads := reads_loadHistory legible here validator.2
    exact (streams_ofGuard loads).bind ((streams_emit _).bind (ih false later))

/-- An export of a legible ledger writes its document and finishes the sink, or is cut off. -/
theorem streams_exportAll (legible : t.Legible)
    (free : may ∨ ∀ v ∈ t.validators, c.guard.Frees v.1) :
    exportAll.Streams may c t (Json.prettyTokens 0 (documentOf t c.guard.config.genesisRoot).toJson)
      fun r s => r = s.finished := by
  have validators : (readNow Ledger.validators).Reads may c t t.validators :=
    GuardWork.reads_readNow (Ledger.yields_validators legible)
  rw [← tokens_exported]
  exact (streams_ofGuard validators).bind ((streams_ofGuard GuardWork.reads_theGuard).bind
    ((streams_emit _).bind ((streams_emitHistories legible true t.validators free).bind
      ((streams_emit _).bind streams_flush))))

end Interchange

/-! ## Sinks that take everything -/

namespace Sink

/-- A sink that takes everything, with what it has taken. -/
def taking (accepted : String) : Sink := ⟨accepted, none, none⟩

theorem Took.eq_of_unlimited {s s' : Sink} {text : String} (h : s.Took text s')
    (unlimited : s.room = none) : s' = { s with accepted := s.accepted ++ text } := by
  obtain ⟨accepted', room', flushFault'⟩ := s'
  have unlimited' : room' = none := Option.map_eq_none_iff.1 (h.room.symm.trans unlimited)
  exact (Sink.mk.injEq ..).mpr ⟨h.accepted, unlimited'.trans unlimited.symm, h.flushFault⟩

end Sink

/-- Where no read fails, such a sink takes all that is written. -/
theorem ExportWork.Streams.unlimited {w : ExportWork α} {tokens : List String}
    {Q : Except GuardError α → Sink → Prop} (h : w.Streams False c t tokens Q) {s : Sink}
    (unlimited : s.room = none) :
    ExportWork.Always False w s c t fun r s' c' t' =>
      Q r s' ∧ s' = { s with accepted := s.accepted ++ String.join tokens } ∧ c' = c ∧ t' = t := by
  refine (h s).mono ?_
  rintro ⟨⟨r, s'⟩, c'⟩ t' ⟨⟨took, ended⟩ | ⟨e, -, cut⟩, same⟩
  · exact ⟨ended, took.eq_of_unlimited unlimited, same⟩
  · -- Such a sink refuses nothing.
    cases cut with
    | unread fails => exact fails.elim
    | refused cut took lacks =>
      obtain ⟨room, limited, -⟩ := took.lacks lacks
      rw [unlimited] at limited
      contradiction

namespace Interchange

/-- Where no call fails and no lock is held, a sink that takes everything has the document in the
    end. -/
theorem writes_exportAll (legible : t.Legible) (idle : c.guard.held = []) (accepted : String) :
    ExportWork.Always False exportAll (.taking accepted) c t fun r s c' t' =>
      r = .ok () ∧
      s = .taking (accepted ++ Json.pretty (documentOf t c.guard.config.genesisRoot).toJson) ∧
      c' = c ∧ t' = t := by
  have free : ∀ v ∈ t.validators, c.guard.Frees v.1 := fun v _ => Guard.frees_of_idle idle v.1
  refine ((streams_exportAll legible (.inr free)).unlimited rfl).mono ?_
  rintro ⟨⟨r, s⟩, c'⟩ t' ⟨ended, rfl, same⟩
  exact ⟨ended, rfl, same⟩

end Interchange

end SlashingGuard
