import SlashingGuard.Proofs.Json.Reading

/-! # Members left out

    A member of an object, or of an object inside it, has a place: the names
    on the way to it.  When members at some places are taken out of the object
    that a record is read from, each member that is left changes the draft as
    before, and the others leave in it what it began with. -/

namespace SlashingGuard.Json

/-- A choice of places. -/
abbrev Places : Type := List String → Bool

/-- The places below a name. -/
def Places.below (gone : Places) (name : String) : Places := fun path => gone (name :: path)

mutual

/-- A value without the members at some places. -/
def without : Json → Places → Json
  | .object members, gone => .object (withoutMembers members gone)
  | .null, _ => .null
  | .bool b, _ => .bool b
  | .number n, _ => .number n
  | .text s, _ => .text s
  | .array items, _ => .array items
termination_by structural value => value

def withoutMembers : List (String × Json) → Places → List (String × Json)
  | [], _ => []
  | member :: rest, gone => withoutMember member gone ++ withoutMembers rest gone
termination_by structural members => members

/-- A member without those below it that are gone, unless it is gone itself. -/
def withoutMember : String × Json → Places → List (String × Json)
  | (name, value), gone => if gone [name] then [] else [(name, without value (gone.below name))]
termination_by structural member => member

end

mutual

/-- Where nothing is gone, a value is whole. -/
theorem without_nothing : ∀ value : Json, value.without (fun _ => false) = value
  | .object members => congrArg Json.object (withoutMembers_nothing members)
  | .null => rfl
  | .bool _ => rfl
  | .number _ => rfl
  | .text _ => rfl
  | .array _ => rfl
termination_by structural value => value

theorem withoutMembers_nothing : ∀ members : List (String × Json),
    withoutMembers members (fun _ => false) = members
  | [] => rfl
  | member :: rest => by
    rw [withoutMembers, withoutMember_nothing member, withoutMembers_nothing rest]
    rfl
termination_by structural members => members

theorem withoutMember_nothing : ∀ member : String × Json,
    withoutMember member (fun _ => false) = [member]
  | (name, value) => congrArg (fun whole => [(name, whole)]) (without_nothing value)
termination_by structural member => member

end

/-- The names that are left keep their order. -/
theorem names_withoutMembers (members : List (String × Json)) (gone : Places) :
    ((withoutMembers members gone).map Prod.fst).Sublist (members.map Prod.fst) := by
  induction members with
  | nil => exact .refl _
  | cons member rest ih =>
    obtain ⟨name, value⟩ := member
    rw [withoutMembers, withoutMember]
    split
    · exact ih.cons name
    · exact ih.cons_cons name

namespace Record

variable {α σ : Type} {r : Record σ}

/-- Without what is gone below it, a member of a record is read as a change of the draft. -/
def GivesWithout (r : Record σ) (gone : Places) (member : String × Json) (store : σ → σ) : Prop :=
  r.GivesUpTo (member.1, member.2.without (gone.below member.1)) store

theorem givesWithout_of {gone : Places} {name : String} {presence : Presence} {read : Reader α}
    {store : α → σ → σ} {value : Json} {a : α}
    (found : (r.members.find? fun m => m.name == name) = some (.of name presence read store))
    (h : ReadsUpTo read (value.without (gone.below name)) a) :
    r.GivesWithout gone (name, value) (store a) :=
  givesUpTo_of found h

/-- A draft that is changed for the members that are not gone. -/
def storeKept (gone : Places) : List (String × Json) → List (σ → σ) → σ → σ
  | (name, _) :: members, store :: stores, draft =>
    storeKept gone members stores (if gone [name] then draft else store draft)
  | _, _, draft => draft

/-- The members that are left change the draft as they would have among the others. -/
theorem gives_withoutMembers {members : List (String × Json)} {stores : List (σ → σ)}
    {gone : Places} (h : List.Forall₂ (r.GivesWithout gone) members stores) :
    ∃ kept, List.Forall₂ r.GivesUpTo (withoutMembers members gone) kept ∧
      ∀ draft, kept.foldl (fun d store => store d) draft = storeKept gone members stores draft := by
  induction h with
  | nil => exact ⟨[], .nil, fun _ => rfl⟩
  | @cons member store members stores gives _ ih =>
    obtain ⟨name, value⟩ := member
    obtain ⟨kept, gives', same⟩ := ih
    -- A member that is gone takes its change with it.
    by_cases left : gone [name] = true
    · refine ⟨kept, ?_, fun draft => ?_⟩
      · rwa [withoutMembers, withoutMember, if_pos left]
      · rw [storeKept, if_pos left, same]
    · refine ⟨store :: kept, ?_, fun draft => ?_⟩
      · rw [withoutMembers, withoutMember, if_neg left]
        exact .cons gives gives'
      · rw [storeKept, if_neg left, List.foldl_cons, same]

/-- An object without some of its members is read as what the others make of the draft, if the
    record needs none of them. -/
theorem reads_without {members : List (String × Json)} {stores : List (σ → σ)} {gone : Places}
    (h : List.Forall₂ (r.GivesWithout gone) members stores)
    (distinct : (r.members.map Member.name).Nodup)
    (ordered : (members.map Prod.fst).Sublist (r.members.map Member.name))
    (free : ∀ m ∈ r.members, m.presence.inObject = false) {made : σ}
    (makes : storeKept gone members stores r.draft = made) :
    Reads r.read ((Json.object members).without gone) made := by
  obtain ⟨kept, gives, same⟩ := gives_withoutMembers h
  have reads := reads_upTo gives distinct ((names_withoutMembers members gone).trans ordered)
    fun m member needed => absurd needed (by rw [free m member]; exact Bool.false_ne_true)
  rw [same, makes] at reads
  exact reads

end Record

end SlashingGuard.Json
