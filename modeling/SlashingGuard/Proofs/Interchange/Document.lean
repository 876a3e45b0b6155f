import SlashingGuard.Interchange.Document
import SlashingGuard.Proofs.Json.Reading
import SlashingGuard.Proofs.Text.Numerals

/-! # Written documents are read

    A document is read from every spelling of its value, so it is what its
    compact form and its pretty form hold.  There is one step for each type of
    the format, from the leaves up: a value of the type is read back wherever
    it stands. -/

namespace SlashingGuard.Interchange

open Json

/-! ## Numbers, roots and keys -/

theorem reads_wordText (n : UInt64) : Reads readWordText (wordText n) n :=
  reads_parsed (Decimal.read_write n)

theorem reads_rootText (root : SigningRoot) : Reads readRootText (rootText root) root :=
  reads_parsed (SigningRoot.read_write root)

theorem reads_keyText (key : PublicKey) : Reads readKeyText (keyText key) key :=
  reads_parsed (PublicKey.read_write key)

/-! ## Records -/

/-- An array of values is read back if each of them is. -/
theorem reads_map {α : Type} {read : Reader α} {write : α → Json}
    (h : ∀ a, Reads read (write a) a) (values : List α) :
    Reads (readList read) (.array (values.map write)) values := by
  apply Reads.list
  rw [List.forall₂_map_left_iff]
  exact List.forall₂_same.2 fun a _ => h a

theorem BlockRecord.reads (b : BlockRecord) : Reads record.read b.toJson b := by
  have slot : record.Gives ("slot", wordText b.slot) _ := Record.gives_of rfl (reads_wordText b.slot)
  have root : record.Gives ("signing_root", rootText b.root) _ :=
    Record.gives_of rfl (reads_rootText b.root)
  exact Record.reads (.cons slot (.cons root .nil)) (by decide) (.refl _)
    (by simp [record, Member.of])

theorem AttestationRecord.reads (a : AttestationRecord) : Reads record.read a.toJson a := by
  have source : record.Gives ("source_epoch", wordText a.source) _ :=
    Record.gives_of rfl (reads_wordText a.source)
  have target : record.Gives ("target_epoch", wordText a.target) _ :=
    Record.gives_of rfl (reads_wordText a.target)
  have root : record.Gives ("signing_root", rootText a.root) _ :=
    Record.gives_of rfl (reads_rootText a.root)
  exact Record.reads (.cons source (.cons target (.cons root .nil))) (by decide) (.refl _)
    (by simp [record, Member.of])

/-- A member that may be left out stands under its own name. -/
theorem names_optionalMember {α : Type} (name : String) (write : α → Json) (value : Option α) :
    ((optionalMember name write value).map Prod.fst).Sublist [name] := by
  cases value with
  | none => exact List.nil_sublist _
  | some a => exact .refl _

theorem FloorRecord.reads (f : FloorRecord) : Reads record.read f.toJson f := by
  have number (n : UInt64) : Reads (readOptional readWordText) (wordText n) (some n) :=
    (reads_wordText n).optional nofun
  have slot := Record.gives_optional (r := record) "slot" rfl number f.slot
  have source := Record.gives_optional (r := record) "source_epoch" rfl number f.source
  have target := Record.gives_optional (r := record) "target_epoch" rfl number f.target
  have ordered : ((optionalMember "slot" wordText f.slot ++
      optionalMember "source_epoch" wordText f.source ++
      optionalMember "target_epoch" wordText f.target).map Prod.fst).Sublist
      (record.members.map Member.name) := by
    rw [List.map_append, List.map_append]
    exact ((names_optionalMember ..).append (names_optionalMember ..)).append
      (names_optionalMember ..)
  have whole := Record.reads (List.rel_append (List.rel_append slot source) target) (by decide)
    ordered (by simp [record, Member.of, Presence.inObject])
  -- Each floor that is there was put into the draft, and the draft has none.
  obtain ⟨s, e, t⟩ := f
  cases s <;> cases e <;> cases t <;> exact whole

theorem History.reads (h : History) : Reads record.read h.toJson h := by
  have key : record.Gives ("pubkey", keyText h.key) _ := Record.gives_of rfl (reads_keyText h.key)
  have blocks : record.Gives ("signed_blocks", .array (h.blocks.map BlockRecord.toJson)) _ :=
    Record.gives_of rfl (reads_map BlockRecord.reads h.blocks)
  have attestations : record.Gives
      ("signed_attestations", .array (h.attestations.map AttestationRecord.toJson)) _ :=
    Record.gives_of rfl (reads_map AttestationRecord.reads h.attestations)
  have floors := Record.gives_optional (r := record) "watermark" rfl
    (fun f : FloorRecord => (FloorRecord.reads f).optional nofun) h.floors
  have ordered : (["pubkey", "signed_blocks", "signed_attestations"] ++
      (optionalMember "watermark" FloorRecord.toJson h.floors).map Prod.fst).Sublist
      (record.members.map Member.name) :=
    List.Sublist.append (.refl ["pubkey", "signed_blocks", "signed_attestations"])
      (names_optionalMember ..)
  have whole := Record.reads (.cons key (.cons blocks (.cons attestations floors))) (by decide)
    ordered (by simp [record, Member.of, Presence.inObject])
  obtain ⟨_, _, _, f⟩ := h
  cases f <;> exact whole

theorem Metadata.reads (m : Metadata) : Reads record.read m.toJson m := by
  have version : record.Gives ("interchange_format_version", .text m.version) _ :=
    Record.gives_of rfl (reads_text m.version)
  have root : record.Gives ("genesis_validators_root", rootText m.genesisRoot) _ :=
    Record.gives_of rfl (reads_rootText m.genesisRoot)
  exact Record.reads (.cons version (.cons root .nil)) (by decide) (.refl _)
    (by simp [record, Member.of])

/-! ## Documents -/

namespace Document

theorem reads (d : Document) : Reads record.read d.toJson d := by
  have metadata : record.Gives ("metadata", d.metadata.toJson) _ :=
    Record.gives_of rfl (Metadata.reads d.metadata)
  have histories : record.Gives ("data", .array (d.histories.map History.toJson)) _ :=
    Record.gives_of rfl (reads_map History.reads d.histories)
  exact Record.reads (.cons metadata (.cons histories .nil)) (by decide) (.refl _)
    (by simp [record, Member.of])

theorem ofText_of_spells {d : Document} {text : String} (spells : Spells text.toList d.toJson) :
    ofText text = .ok d :=
  readWhole_of_spells (reads d) spells

/-- A document is what its written forms hold. -/
theorem ofText_compact (d : Document) : ofText (compact d.toJson) = .ok d :=
  ofText_of_spells (spells_toList_compact d.toJson)

theorem ofText_pretty (d : Document) : ofText (pretty d.toJson) = .ok d :=
  ofText_of_spells (spells_toList_pretty d.toJson)

/-- Both written forms of a document are read as that document.  So whatever a
    text is read as, a document or a failure, writing what was read in either
    form and reading it again comes to the same, and documents that differ
    anywhere, if only in that one has no floors where the other has empty
    ones, differ in both forms. -/
theorem round_trips :
    (∀ d : Document, ofText (compact d.toJson) = .ok d ∧ ofText (pretty d.toJson) = .ok d) ∧
    (∀ text : String,
      ((ofText text).bind fun d => ofText (compact d.toJson)) = ofText text ∧
      ((ofText text).bind fun d => ofText (pretty d.toJson)) = ofText text) ∧
    Function.Injective (fun d : Document => compact d.toJson) ∧
    Function.Injective (fun d : Document => pretty d.toJson) := by
  refine ⟨fun d => ⟨ofText_compact d, ofText_pretty d⟩, fun text => ?_, ?_, ?_⟩
  · cases ofText text with
    | error trouble => exact ⟨rfl, rfl⟩
    | ok d => exact ⟨ofText_compact d, ofText_pretty d⟩
  · -- The reader undoes the writer, so two documents of one text are one.
    intro d d' same
    have read : ofText (compact d.toJson) = ofText (compact d'.toJson) := congrArg ofText same
    rw [ofText_compact, ofText_compact] at read
    exact Except.ok.inj read
  · intro d d' same
    have read : ofText (pretty d.toJson) = ofText (pretty d'.toJson) := congrArg ofText same
    rw [ofText_pretty, ofText_pretty] at read
    exact Except.ok.inj read

end Document

end SlashingGuard.Interchange
