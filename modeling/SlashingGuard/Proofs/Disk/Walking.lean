import SlashingGuard.Disk.Tree

/-! # Where paths lead in a tree of files

    A tree has no links, so where a path leads is read off its steps, as far
    as they can be taken at all.  While a process works on a data directory,
    directories are added to the tree and never taken away: a path that leads
    to a directory goes on to lead there, and a name behind it stands for one
    node throughout. -/

namespace SlashingGuard

/-! ## Names behind a path -/

namespace Path

theorem pieces_ne_nil (path : List Char) : pieces path ≠ [] := by
  unfold pieces
  split
  · nofun
  · nofun
  · split <;> nofun

theorem pieces_append_slash (front rest : List Char) :
    pieces (front ++ '/' :: rest) = pieces front ++ pieces rest := by
  induction front with
  | nil => rfl
  | cons c front ih =>
    by_cases slash : c = '/'
    · subst slash
      exact congrArg ([] :: ·) ih
    · rw [List.cons_append, pieces.eq_3 c _ slash, pieces.eq_3 c _ slash, ih]
      cases h : pieces front with
      | nil => exact absurd h (pieces_ne_nil front)
      | cons piece others => rfl

theorem pieces_of_not_mem {piece : Piece} (h : '/' ∉ piece) : pieces piece = [piece] := by
  induction piece with
  | nil => rfl
  | cons c rest ih =>
    obtain ⟨ne, others⟩ := not_or.1 (mt List.mem_cons.2 h)
    rw [pieces.eq_3 c rest (fun same => ne same.symm), ih others]

/-- A name for a file: one step, and one that leads on. -/
structure IsName (name : String) : Prop where
  nonempty : name.toList ≠ []
  noSlash : '/' ∉ name.toList
  noNul : '\x00' ∉ name.toList
  ne_dot : name ≠ "."
  ne_dots : name ≠ ".."
  short : name.utf8ByteSize ≤ Disk.Tree.nameLimit

variable {directory name : String}

/-- A name behind a path stands behind a slash, or alone. -/
theorem toList_joinPath (directory name : String) :
    directory = "" ∧ joinPath directory name = name ∨
    ∃ front, (joinPath directory name).toList = front ++ '/' :: name.toList ∧
      (directory.toList = front ∧ front ≠ [] ∨ directory.toList = front ++ ['/']) := by
  unfold joinPath
  split
  · next at_end =>
    rcases at_end with rfl | slashed
    · exact .inl ⟨rfl, String.empty_append⟩
    · rw [String.endsWith_eq_endsWith_toSlice, String.Slice.endsWith_string_iff] at slashed
      obtain ⟨front, ends⟩ := slashed
      have ends : directory.toList = front ++ ['/'] := by simpa using ends.symm
      refine .inr ⟨front, ?_, .inr ends⟩
      rw [String.toList_append, ends, List.append_assoc]
      rfl
  · next open_end =>
    refine .inr ⟨directory.toList, ?_, .inl ⟨rfl, fun none => open_end (.inl ?_)⟩⟩
    · rw [String.toList_append, String.toList_append, List.append_assoc]
      rfl
    · exact String.toList_eq_nil_iff.1 none

theorem steps_joinPath (h : IsName name) :
    steps (joinPath directory name) = steps directory ++ [name] := by
  have alone : steps name = [name] := by
    rw [steps, pieces_of_not_mem h.noSlash]
    simp [h.nonempty]
  rcases toList_joinPath directory name with ⟨rfl, same⟩ | ⟨front, joined, ends⟩
  · rw [same, alone]
    rfl
  · have behind : steps (joinPath directory name) =
        ((pieces front).filter (· ≠ [])).map String.ofList ++ steps name := by
      rw [steps, joined, pieces_append_slash, List.filter_append, List.map_append]
      rfl
    have before : steps directory = ((pieces front).filter (· ≠ [])).map String.ofList := by
      rcases ends with ⟨ends, -⟩ | ends
      · rw [steps, ends]
      · rw [steps, ends, pieces_append_slash, List.filter_append]
        simp [pieces]
    rw [behind, before, alone]

theorem isAbsolute_joinPath (h : IsName name) :
    isAbsolute (joinPath directory name) = isAbsolute directory := by
  rcases toList_joinPath directory name with ⟨rfl, same⟩ | ⟨front, joined, ends⟩
  · rw [same]
    unfold isAbsolute
    cases letters : name.toList with
    | nil => exact absurd letters h.nonempty
    | cons c _ =>
      have ne : c ≠ '/' := fun slash => h.noSlash (by rw [letters, slash]; exact .head _)
      simpa using ne
  · unfold isAbsolute
    rw [joined]
    rcases ends with ⟨ends, some_step⟩ | ends <;> rw [ends]
    · cases front with
      | nil => contradiction
      | cons c front => rfl
    · cases front <;> rfl

theorem not_isSlashed_joinPath (h : IsName name) : isSlashed (joinPath directory name) = false := by
  have last : ∀ front : List Char, (front ++ name.toList).getLast? ≠ some '/' := by
    intro front ends
    have last : (front ++ name.toList).getLast? = name.toList.getLast? := by
      rw [List.getLast?_append, List.getLast?_eq_some_getLast h.nonempty, Option.some_or]
    rw [last] at ends
    exact h.noSlash (List.mem_of_getLast? ends)
  rcases toList_joinPath directory name with ⟨rfl, same⟩ | ⟨front, joined, -⟩
  · simpa [isSlashed, same] using last []
  · have ends := last (front ++ ['/'])
    rw [List.append_assoc] at ends
    simpa [isSlashed, joined] using ends

theorem noNul_joinPath (h : IsName name) (noNul : '\x00' ∉ directory.toList) :
    '\x00' ∉ (joinPath directory name).toList := by
  rcases toList_joinPath directory name with ⟨rfl, same⟩ | ⟨front, joined, ends⟩
  · rw [same]
    exact h.noNul
  · have before : '\x00' ∉ front := by
      rcases ends with ⟨ends, -⟩ | ends <;> rw [ends] at noNul
      · exact noNul
      · exact fun nul => noNul (List.mem_append_left _ nul)
    rw [joined]
    simp [before, h.noNul]

theorem joinPath_ne_empty (h : IsName name) : joinPath directory name ≠ "" := by
  rcases toList_joinPath directory name with ⟨rfl, same⟩ | ⟨front, joined, -⟩
  · rw [same]
    rintro rfl
    exact h.nonempty rfl
  · intro none
    rw [none] at joined
    simp at joined

end Path

namespace Disk.Tree

variable {t : Tree} {path : String}

/-! ## Nodes -/

theorem lookup_filter_ne (nodes : List (Route × Node)) (route r : Route) :
    (nodes.filter fun entry => entry.1 ≠ route).lookup r =
      if r = route then none else nodes.lookup r := by
  induction nodes with
  | nil => simp
  | cons entry rest ih =>
    obtain ⟨k, node⟩ := entry
    by_cases removed : k = route
    · subst removed
      rw [List.filter_cons_of_neg (by simp), ih, List.lookup_cons]
      by_cases same : r = k
      · simp [same]
      · simp [same, beq_eq_false_iff_ne.2 same]
    · rw [List.filter_cons_of_pos (by simpa using removed), List.lookup_cons, List.lookup_cons, ih]
      by_cases same : r = k
      · subst same
        simp [removed]
      · simp [beq_eq_false_iff_ne.2 same]

theorem node?_put {route : Route} (below : route ≠ []) (node : Node) (r : Route) :
    (t.put route node).node? r = if r = route then some node else t.node? r := by
  unfold node? put
  rw [List.lookup_cons, lookup_filter_ne]
  by_cases same : r = route
  · subst same
    simp [below]
  · simp [same, beq_eq_false_iff_ne.2 same]

theorem node?_remove {route : Route} (below : route ≠ []) (r : Route) :
    (t.remove route).node? r = if r = route then none else t.node? r := by
  unfold node? remove
  rw [lookup_filter_ne]
  by_cases same : r = route
  · subst same
    simp [below]
  · simp [same]

/-! ## Routes -/

/-- Where a path begins. -/
def start (t : Tree) (path : String) : Route := if Path.isAbsolute path then [] else t.here

/-- Where a step leads if it can be taken. -/
def stepTo (route : Route) (step : String) : Route :=
  if step = "." then route else if step = ".." then route.dropLast else route ++ [step]

/-- Where a path leads if its steps can be taken. -/
def routeOf (t : Tree) (path : String) : Route := (Path.steps path).foldl stepTo (t.start path)

theorem follow_eq {route r : Route} {step : String} (h : t.follow route step = .ok r) :
    r = stepTo route step := by
  unfold follow at h
  unfold stepTo
  split at h
  · next dot => rw [if_pos dot]; exact (Except.ok.inj h).symm
  · next dot =>
    rw [if_neg dot]
    split at h
    · next dots => rw [if_pos dots]; exact (Except.ok.inj h).symm
    · next dots =>
      rw [if_neg dots]
      unfold entry? at h
      split at h
      · contradiction
      · dsimp only [Except.bind] at h
        split at h
        · exact (Except.ok.inj h).symm
        · contradiction
        · contradiction

theorem walk_eq {steps : List String} {route r : Route} (h : steps.foldlM t.follow route = .ok r) :
    r = steps.foldl stepTo route := by
  induction steps generalizing route with
  | nil => exact (Except.ok.inj h).symm
  | cons step rest ih =>
    rw [List.foldlM_cons] at h
    obtain ⟨next, first, others⟩ := exists_of_bind_eq_ok h
    rw [List.foldl_cons, ← follow_eq first]
    exact ih others

/-- The path leads to a directory. -/
structure Leads (t : Tree) (path : String) (home : Route) : Prop where
  noNul : '\x00' ∉ path.toList
  short : path.utf8ByteSize ≤ pathLimit
  walk : (Path.steps path).foldlM t.follow (t.start path) = .ok home

theorem Leads.eq_routeOf {home : Route} (h : t.Leads path home) : home = t.routeOf path :=
  walk_eq h.walk

theorem leads_empty (t : Tree) : t.Leads "" t.here where
  noNul := nofun
  short := Nat.zero_le _
  walk := rfl

/-- How a path is aimed at its last step. -/
theorem aim_eq (noNul : '\x00' ∉ path.toList) (some_step : path ≠ "")
    (short : path.utf8ByteSize ≤ pathLimit) :
    t.aim path =
      match (Path.steps path).getLast? with
      | none => .ok (.directory (t.start path))
      | some last =>
        ((Path.steps path).dropLast.foldlM t.follow (t.start path)).bind fun above =>
          if last = "." ∨ last = ".." then (t.follow above last).map Target.directory
          else .ok (Target.named above last (Path.isSlashed path)) := by
  unfold aim
  rw [if_neg (by simpa using noNul), if_neg some_step, if_neg (Nat.not_lt.2 short)]
  cases (Path.steps path).getLast? with
  | none => rfl
  | some last =>
    show (do
      let above ← (Path.steps path).dropLast.foldlM t.follow (t.start path)
      if last = "." ∨ last = ".." then return Target.directory (← t.follow above last)
      return Target.named above last (Path.isSlashed path)) = _
    cases (Path.steps path).dropLast.foldlM t.follow (t.start path) with
    | error e => rfl
    | ok above =>
      show (if last = "." ∨ last = ".." then _ else _) = if last = "." ∨ last = ".." then _ else _
      split
      · cases t.follow above last <;> rfl
      · rfl

/-- Whatever can be aimed at is a path that can be told. -/
theorem aim_ok {target : Target} (h : t.aim path = .ok target) :
    '\x00' ∉ path.toList ∧ path ≠ "" ∧ path.utf8ByteSize ≤ pathLimit := by
  unfold aim at h
  by_cases nul : '\x00' ∈ path.toList
  · rw [if_pos (by simpa using nul)] at h
    contradiction
  rw [if_neg (by simpa using nul)] at h
  by_cases none : path = ""
  · rw [if_pos none] at h
    contradiction
  rw [if_neg none] at h
  by_cases long : pathLimit < path.utf8ByteSize
  · rw [if_pos long] at h
    contradiction
  exact ⟨nul, none, Nat.not_lt.1 long⟩

/-- A path leads where a directory is found at its end. -/
theorem find_eq_directory_iff {home : Route} (noNul : '\x00' ∉ path.toList) (some_step : path ≠ "")
    (short : path.utf8ByteSize ≤ pathLimit) :
    t.find path = .ok (home, .directory) ↔
      (Path.steps path).foldlM t.follow (t.start path) = .ok home := by
  unfold Tree.find
  rw [aim_eq noNul some_step short]
  cases last : (Path.steps path).getLast? with
  | none =>
    rw [List.getLast?_eq_none_iff.1 last]
    simp [bind, Except.bind, pure, Except.pure]
  | some name =>
    obtain ⟨init, steps⟩ := List.getLast?_eq_some_iff.1 last
    rw [steps, List.dropLast_concat, List.foldlM_append]
    cases init.foldlM t.follow (t.start path) with
    | error e => simp [bind, Except.bind]
    | ok above =>
      by_cases dots : name = "." ∨ name = ".."
      · cases step : t.follow above name <;>
          simp [bind, Except.bind, pure, Except.pure, Except.map, dots, step]
      · -- A name is looked up in the directory that the steps before it lead to.
        obtain ⟨dot, dots'⟩ := not_or.1 dots
        rcases there : t.entry? above name with e | _ | _ | _ | _ <;>
          cases Path.isSlashed path <;>
            simp [bind, Except.bind, pure, Except.pure, throw, throwThe, MonadExceptOf.throw,
              follow, there, dot, dots']

theorem Leads.find {home : Route} (h : t.Leads path home) (some_step : path ≠ "") :
    t.find path = .ok (home, .directory) :=
  (find_eq_directory_iff h.noNul some_step h.short).2 h.walk

theorem leads_of_find {home : Route} (h : t.find path = .ok (home, .directory)) :
    t.Leads path home := by
  obtain ⟨target, aimed, -⟩ := exists_of_bind_eq_ok h
  obtain ⟨noNul, some_step, short⟩ := aim_ok aimed
  exact ⟨noNul, short, (find_eq_directory_iff noNul some_step short).1 h⟩

/-! ## Names in a directory -/

variable {directory name : String} {home : Route}

/-- Whether the path of a name in a directory is too long for a call. -/
def tooLong (directory name : String) : Bool := pathLimit < (joinPath directory name).utf8ByteSize

theorem Leads.aim_joinPath (h : t.Leads directory home) (isName : Path.IsName name) :
    t.aim (joinPath directory name) =
      if tooLong directory name then .error .nameTooLong else .ok (.named home name false) := by
  have noNul := Path.noNul_joinPath isName h.noNul
  have some_step := @Path.joinPath_ne_empty directory _ isName
  unfold tooLong
  by_cases long : pathLimit < (joinPath directory name).utf8ByteSize
  · rw [if_pos (decide_eq_true long), aim, if_neg (by simpa using noNul), if_neg some_step,
      if_pos long]
    rfl
  · have start : t.start (joinPath directory name) = t.start directory := by
      rw [Tree.start, Tree.start, Path.isAbsolute_joinPath isName]
    rw [if_neg (by simpa using long), aim_eq noNul some_step (Nat.not_lt.1 long),
      Path.steps_joinPath isName, List.getLast?_concat, List.dropLast_concat, start, h.walk]
    simp [Except.bind, isName.ne_dot, isName.ne_dots, Path.not_isSlashed_joinPath isName]

theorem entry?_eq (isName : Path.IsName name) (above : Route) :
    t.entry? above name = .ok (t.node? (above ++ [name])) := by
  unfold entry?
  rw [if_neg (Nat.not_lt.2 isName.short)]

/-- What is found at a name in a directory. -/
theorem Leads.find_joinPath (h : t.Leads directory home) (isName : Path.IsName name) :
    t.find (joinPath directory name) =
      if tooLong directory name then .error .nameTooLong
      else match t.node? (home ++ [name]) with
        | some node => .ok (home ++ [name], node)
        | none => .error .notFound := by
  unfold Tree.find
  rw [h.aim_joinPath isName]
  cases tooLong directory name with
  | true => rfl
  | false =>
    simp only [Bool.false_eq_true, if_false, bind, Except.bind, entry?_eq isName]
    rcases t.node? (home ++ [name]) with _ | _ | _ | _ <;> rfl

/-- Where a file can be put under a name in a directory. -/
theorem Leads.place_joinPath (h : t.Leads directory home) (isName : Path.IsName name) :
    t.place (joinPath directory name) =
      if tooLong directory name then .error .nameTooLong
      else if t.node? (home ++ [name]) = some .directory then .error .isDirectory
      else .ok (home ++ [name], t.node? (home ++ [name])) := by
  unfold place
  rw [h.aim_joinPath isName]
  cases tooLong directory name with
  | true => rfl
  | false =>
    simp only [Bool.false_eq_true, if_false, bind, Except.bind, entry?_eq isName]
    rcases t.node? (home ++ [name]) with _ | _ | _ | _ <;> rfl

end Disk.Tree

end SlashingGuard
