import Mathlib.Data.List.Forall2
import SlashingGuard.Json.Record

/-! # Readers that cannot be told apart

    Two readers are alike if they take the same texts, stop behind the same
    place with values that are related, and make the same complaints.  Records
    with the same names whose members are alike are read alike, whatever the
    text.  So what is made of a record may be compared between two types of
    drafts, and a reader compared with itself tells what all drafts have in
    common. -/

namespace SlashingGuard.Json

variable {α α' β β' σ σ' : Type}

/-- Two attempts end in the same way, with values that are related. -/
inductive Both (R : α → α' → Prop) : Except Error α → Except Error α' → Prop where
  | ok {a : α} {a' : α'} : R a a' → Both R (.ok a) (.ok a')
  | error (e : Error) : Both R (.error e) (.error e)

theorem Both.refl {R : α → α → Prop} (related : ∀ a, R a a) (x : Except Error α) : Both R x x := by
  cases x with
  | ok a => exact .ok (related a)
  | error e => exact .error e

theorem Both.bind {R : α → α' → Prop} {S : β → β' → Prop} {x : Except Error α}
    {x' : Except Error α'} {f : α → Except Error β} {f' : α' → Except Error β'} (h : Both R x x')
    (hf : ∀ a a', R a a' → Both S (f a) (f' a')) : Both S (x >>= f) (x' >>= f') := by
  cases h with
  | ok related => exact hf _ _ related
  | error e => exact .error e

/-- What one attempt is bound to is bound alike. -/
theorem Both.bind_same {S : β → β' → Prop} (x : Except Error α) {f : α → Except Error β}
    {f' : α → Except Error β'} (hf : ∀ a, Both S (f a) (f' a)) : Both S (x >>= f) (x >>= f') :=
  (Both.refl (fun _ => rfl) x).bind fun a a' (same : a = a') => same ▸ hf a

/-- Values with the same rest behind them. -/
def WithRest (R : α → α' → Prop) (p : α × Rest) (p' : α' × Rest) : Prop :=
  R p.1 p'.1 ∧ p.2 = p'.2

/-- Two readers are alike at every text. -/
def Alike (R : α → α' → Prop) (read : Reader α) (read' : Reader α') : Prop :=
  ∀ input, Both (WithRest R) (read input) (read' input)

theorem Alike.refl {R : α → α → Prop} (related : ∀ a, R a a) (read : Reader α) :
    Alike R read read :=
  fun input => .refl (fun p => ⟨related p.1, rfl⟩) (read input)

theorem Alike.readWhole {R : α → α' → Prop} {read : Reader α} {read' : Reader α'}
    (h : Alike R read read') (text : String) :
    Both R (readWhole read text) (readWhole read' text) := by
  refine (h text.toList).bind fun (a, rest) (a', rest') ⟨related, same⟩ => ?_
  dsimp only at same ⊢
  subst same
  split
  · exact .ok related
  · exact .error _

/-- What all values of a reader have in common is true of what is read. -/
theorem Alike.holds {P : α → Prop} {read : Reader α} (h : Alike (fun a _ => P a) read read)
    {text : String} {a : α} (reads : Json.readWhole read text = .ok a) : P a := by
  have both := h.readWhole text
  rw [reads] at both
  cases both with
  | ok holds => exact holds

/-- A complaint about the kind of a value is the same whatever was wanted in its place. -/
theorem wrongKind_alike (R : α → α' → Prop) (expected : String) (rest : Rest) :
    Both R (wrongKind expected rest) (wrongKind expected rest) := by
  have number (x : Number × Rest) :
      Both R (wrongKind.number expected x) (wrongKind.number expected x) := by
    obtain ⟨_ | _ | _, _⟩ := x <;> exact .error _
  unfold wrongKind
  split
  · exact .error _
  · exact .bind_same _ fun _ => .error _
  · exact .bind_same _ fun _ => .error _
  · exact .bind_same _ fun _ => .error _
  · exact .bind_same _ number
  · exact .bind_same _ fun _ => .error _
  · exact .error _
  · exact .error _
  · split
    · exact .bind_same _ number
    · exact .error _

/-! ## Members -/

/-- Two members have the same name and presence, and change related drafts into related ones. -/
structure Member.Alike (R : σ → σ' → Prop) (m : Member σ) (m' : Member σ') : Prop where
  name : m.name = m'.name
  presence : m.presence = m'.presence
  read : Json.Alike (fun f f' => ∀ d d', R d d' → R (f d) (f' d')) m.read m'.read

theorem Member.alike_of {S : α → α' → Prop} {R : σ → σ' → Prop} {name : String}
    {presence : Presence} {read : Reader α} {read' : Reader α'} {store : α → σ → σ}
    {store' : α' → σ' → σ'} (readers : Json.Alike S read read')
    (stores : ∀ a a' d d', S a a' → R d d' → R (store a d) (store' a' d')) :
    Alike R (.of name presence read store) (.of name presence read' store') where
  name := rfl
  presence := rfl
  read input := by
    have both := readers input
    simp only [Member.of]
    generalize read input = x, read' input = x' at both
    cases both with
    | ok related => exact .ok ⟨fun d d' drafts => stores _ _ d d' related.1 drafts, related.2⟩
    | error e => exact .error e

/-- Members that are read by one reader are alike if what they store is. -/
theorem Member.alike_same {R : σ → σ' → Prop} {name : String} {presence : Presence}
    {read : Reader α} {store : α → σ → σ} {store' : α → σ' → σ'}
    (stores : ∀ a d d', R d d' → R (store a d) (store' a d')) :
    Alike R (.of name presence read store) (.of name presence read store') :=
  alike_of (.refl (fun _ => rfl) read) fun a a' d d' (same : a = a') drafts =>
    same ▸ stores a d d' drafts

/-! ## Records -/

namespace Record

variable {R : σ → σ' → Prop} {r : Record σ} {r' : Record σ'}

/-- The members of two records that a search finds are alike, if the search asks for names and
    presences alone. -/
theorem find?_alike {members : List (Member σ)} {members' : List (Member σ')}
    (h : List.Forall₂ (Member.Alike R) members members') (p : String → Presence → Bool) :
    Option.Rel (Member.Alike R) (members.find? fun m => p m.name m.presence)
      (members'.find? fun m => p m.name m.presence) := by
  induction h with
  | nil => exact .none
  | cons alike _ ih =>
    rw [List.find?_cons, List.find?_cons, ← alike.name, ← alike.presence]
    split
    · exact .some alike
    · exact ih

theorem complete_alike (members : List.Forall₂ (Member.Alike R) r.members r'.members)
    (seen : List String) {d : σ} {d' : σ'} (drafts : R d d') (rest : Rest) :
    Both (WithRest R) (complete r seen d rest) (complete r' seen d' rest) := by
  have missing := find?_alike members fun name presence =>
    presence.inObject && !seen.contains name
  unfold complete
  generalize r.members.find? _ = m, r'.members.find? _ = m' at missing ⊢
  cases missing with
  | none => exact .ok ⟨drafts, rfl⟩
  | some alike =>
    dsimp only
    rw [alike.name]
    exact .error _

theorem readMembers_alike (members : List.Forall₂ (Member.Alike R) r.members r'.members)
    (fuel : Nat) (first : Bool) (seen : List String) {d : σ} {d' : σ'} (drafts : R d d')
    (input : Rest) :
    Both (WithRest R) (readMembers r fuel first seen d input)
      (readMembers r' fuel first seen d' input) := by
  -- The turns are the same, since readers find their way by names and never look at a draft.
  induction fuel generalizing first seen d d' input with
  | zero => exact .error _
  | succ fuel ih =>
    rw [readMembers, readMembers]
    refine .bind_same _ fun ahead => ?_
    cases ahead with
    | closed rest => exact complete_alike members seen drafts rest
    | name quoted =>
      refine .bind_same _ fun (chars, rest) => ?_
      have found := find?_alike members fun name _ => name == String.ofList chars
      dsimp only at found ⊢
      generalize r.members.find? _ = m, r'.members.find? _ = m' at found ⊢
      cases found with
      | none =>
        refine .bind_same _ fun behind => .bind_same _ fun rest => ?_
        exact ih false seen drafts rest
      | some alike =>
        dsimp only
        split
        · exact .error _
        · refine .bind_same _ fun behind => (alike.read behind).bind ?_
          rintro ⟨store, after⟩ ⟨store', after'⟩ ⟨stores, same⟩
          dsimp only at same ⊢
          subst same
          exact ih false _ (stores d d' drafts) after

theorem readItems_alike (name : r.name = r'.name) (count : r.members.length = r'.members.length)
    {members : List (Member σ)} {members' : List (Member σ')}
    (h : List.Forall₂ (Member.Alike R) members members') (n : Nat) {d : σ} {d' : σ'}
    (drafts : R d d') (input : Rest) :
    Both (WithRest R) (readItems r members n d input) (readItems r' members' n d' input) := by
  induction h generalizing n d d' input with
  | nil =>
    rw [readItems, readItems]
    cases endArray input with
    | ok rest => exact .ok ⟨drafts, rfl⟩
    | error e => exact .error e
  | cons alike _ ih =>
    rw [readItems, readItems]
    refine .bind_same _ fun ahead => ?_
    cases ahead with
    | none =>
      dsimp only
      rw [alike.presence, name, count]
      split
      · exact .bind_same _ fun rest => .error _
      · exact ih n drafts input
    | some item =>
      refine (alike.read item).bind ?_
      rintro ⟨store, rest⟩ ⟨store', rest'⟩ ⟨stores, same⟩
      dsimp only at same ⊢
      subst same
      exact ih (n + 1) (stores d d' drafts) rest

/-- Records whose members and drafts are alike are read alike. -/
theorem read_alike (name : r.name = r'.name)
    (members : List.Forall₂ (Member.Alike R) r.members r'.members) (drafts : R r.draft r'.draft) :
    Alike R r.read r'.read := by
  intro input
  unfold read
  split
  · exact .error _
  · exact readItems_alike name members.length_eq members 0 drafts _
  · exact readMembers_alike members _ true [] drafts _
  · rw [name]
    exact wrongKind_alike _ _ _

end Record

end SlashingGuard.Json
