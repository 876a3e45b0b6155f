import SlashingGuard.Proofs.Disk.Walking
import SlashingGuard.Proofs.Store.Saving

/-! # What calls on a tree keep

    A call on a tree adds directories, changes the file at the one route that
    it names, or changes nothing.  No call takes a directory away, so whoever
    works in a directory finds it again under the same path. -/

namespace SlashingGuard.Disk.Tree

variable {t u v : Tree} {path : String} {home : Route} {changed : List Route}

/-! ## Kept nodes -/

/-- From one tree to a later one directories were added, and but for the files at the routes in
    `changed` nothing else happened to the nodes. -/
structure Keeps (changed : List Route) (t u : Tree) : Prop where
  here : u.here = t.here
  directories : ∀ route, t.node? route = some .directory → u.node? route = some .directory
  others : ∀ route ∉ changed, u.node? route = t.node? route ∨
    t.node? route = none ∧ u.node? route = some .directory

/-- The same, and the locks that are held are the same too. -/
structure Leaves (changed : List Route) (t u : Tree) : Prop extends Keeps changed t u where
  locked : u.locked = t.locked

namespace Keeps

theorem refl (changed : List Route) (t : Tree) : Keeps changed t t :=
  ⟨rfl, fun _ h => h, fun _ _ => .inl rfl⟩

theorem trans (first : Keeps changed t u) (second : Keeps changed u v) : Keeps changed t v := by
  refine ⟨second.here.trans first.here, fun route h => ?_, fun route other => ?_⟩
  · exact second.directories route (first.directories route h)
  · rcases first.others route other with same | ⟨missing, directory⟩
    · rw [← same]
      exact second.others route other
    · exact .inr ⟨missing, second.directories route directory⟩

theorem mono (h : Keeps changed t u) {more : List Route} (sub : changed ⊆ more) : Keeps more t u :=
  ⟨h.here, h.directories, fun route other => h.others route fun among => other (sub among)⟩

theorem start (h : Keeps changed t u) (path : String) : u.start path = t.start path := by
  rw [Tree.start, Tree.start, h.here]

theorem routeOf (h : Keeps changed t u) (path : String) : u.routeOf path = t.routeOf path := by
  rw [Tree.routeOf, Tree.routeOf, h.start]

theorem entry? (h : Keeps changed t u) {above : Route} {name : String}
    (found : t.entry? above name = .ok (some .directory)) :
    u.entry? above name = .ok (some .directory) := by
  unfold Tree.entry? at found ⊢
  split at found
  · contradiction
  · next short => rw [if_neg short, h.directories _ (Except.ok.inj found)]

theorem follow (h : Keeps changed t u) {route r : Route} {step : String}
    (leads : t.follow route step = .ok r) : u.follow route step = .ok r := by
  unfold Tree.follow at leads ⊢
  by_cases dot : step = "."
  · rwa [if_pos dot] at leads ⊢
  by_cases dots : step = ".."
  · rw [if_neg dot, if_pos dots] at leads ⊢
    exact leads
  rw [if_neg dot, if_neg dots] at leads ⊢
  obtain ⟨node, found, leads⟩ := exists_of_bind_eq_ok leads
  cases node with
  | none => contradiction
  | some node =>
    cases node with
    | directory =>
      rw [h.entry? found]
      exact leads
    | file _ => contradiction
    | stream => contradiction

theorem walk (h : Keeps changed t u) {steps : List String} {route r : Route}
    (leads : steps.foldlM t.follow route = .ok r) : steps.foldlM u.follow route = .ok r := by
  induction steps generalizing route with
  | nil => exact leads
  | cons step rest ih =>
    rw [List.foldlM_cons] at leads ⊢
    obtain ⟨next, first, others⟩ := exists_of_bind_eq_ok leads
    rw [h.follow first]
    exact ih others

theorem leads (h : Keeps changed t u) (leads : t.Leads path home) : u.Leads path home where
  noNul := leads.noNul
  short := leads.short
  walk := by
    rw [h.start]
    exact h.walk leads.walk

end Keeps

namespace Leaves

theorem refl (changed : List Route) (t : Tree) : Leaves changed t t := ⟨.refl changed t, rfl⟩

theorem trans (first : Leaves changed t u) (second : Leaves changed u v) : Leaves changed t v :=
  ⟨first.toKeeps.trans second.toKeeps, second.locked.trans first.locked⟩

theorem mono (h : Leaves changed t u) {more : List Route} (sub : changed ⊆ more) :
    Leaves more t u := ⟨h.toKeeps.mono sub, h.locked⟩

end Leaves

/-- A file is put where no directory stands. -/
theorem leaves_put {route : Route} (below : route ≠ []) (file : t.node? route ≠ some .directory)
    (contents : Bytes) : Leaves [route] t (t.put route (.file contents)) := by
  refine ⟨⟨rfl, fun r h => ?_, fun r other => .inl ?_⟩, rfl⟩
  · rw [node?_put below, if_neg, h]
    rintro rfl
    exact file h
  · rw [node?_put below, if_neg (by simpa using other)]

theorem leaves_remove {route : Route} (below : route ≠ [])
    (file : t.node? route ≠ some .directory) : Leaves [route] t (t.remove route) := by
  refine ⟨⟨rfl, fun r h => ?_, fun r other => .inl ?_⟩, rfl⟩
  · rw [node?_remove below, if_neg, h]
    rintro rfl
    exact file h
  · rw [node?_remove below, if_neg (by simpa using other)]

theorem leaves_put_directory {route : Route} (below : route ≠ []) (missing : t.node? route = none) :
    Leaves [] t (t.put route .directory) := by
  refine ⟨⟨rfl, fun r h => ?_, fun r _ => ?_⟩, rfl⟩
  · rw [node?_put below]
    split
    · rfl
    · exact h
  · rw [node?_put below]
    split
    · next same => exact .inr ⟨same ▸ missing, rfl⟩
    · exact .inl rfl

/-- The contents of the file at a route, if there is one. -/
def file? (t : Tree) (route : Route) : Option Bytes :=
  match t.node? route with
  | some (.file contents) => some contents
  | _ => none

/-- A directory where nothing stood is no file either. -/
theorem Keeps.file? (h : Keeps changed t u) {route : Route} (other : route ∉ changed) :
    u.file? route = t.file? route := by
  unfold Tree.file?
  rcases h.others route other with same | ⟨missing, directory⟩
  · rw [same]
  · rw [missing, directory]

/-! ## Directories -/

/-- A path that is aimed at a name leads to where the name is looked up. -/
theorem aim_named {above : Route} {name : String} {slashed : Bool}
    (h : t.aim path = .ok (.named above name slashed)) :
    ∃ init, Path.steps path = init ++ [name] ∧ init.foldlM t.follow (t.start path) = .ok above ∧
      name ≠ "." ∧ name ≠ ".." := by
  obtain ⟨noNul, some_step, short⟩ := aim_ok h
  rw [aim_eq noNul some_step short] at h
  cases last : (Path.steps path).getLast? with
  | none =>
    rw [last] at h
    simp at h
  | some step =>
    obtain ⟨init, steps⟩ := List.getLast?_eq_some_iff.1 last
    rw [last, steps, List.dropLast_concat] at h
    obtain ⟨reached, walk, h⟩ := exists_of_bind_eq_ok h
    refine ⟨init, ?_⟩
    by_cases dots : step = "." ∨ step = ".."
    · rw [if_pos dots] at h
      cases follow : t.follow reached step <;> rw [follow] at h <;> simp [Except.map] at h
    · rw [if_neg dots] at h
      simp only [Except.ok.injEq, Target.named.injEq] at h
      obtain ⟨rfl, rfl, -⟩ := h
      exact ⟨steps, walk, not_or.1 dots⟩

/-- A directory that is put where nothing stands is one that its path leads to. -/
theorem leaves_withDirectory (h : t.withDirectory path = .ok u) :
    Leaves [] t u ∧ ∃ home, u.Leads path home := by
  obtain ⟨target, aimed, h⟩ := exists_of_bind_eq_ok h
  cases target with
  | directory route => contradiction
  | named above name slashed =>
    obtain ⟨node, found, h⟩ := exists_of_bind_eq_ok h
    cases node with
    | some _ => contradiction
    | none =>
      obtain rfl := Except.ok.inj h
      have below : above ++ [name] ≠ [] := by simp
      unfold entry? at found
      split at found
      · contradiction
      · next short =>
        have kept := leaves_put_directory below (Except.ok.inj found)
        obtain ⟨noNul, -, fits⟩ := aim_ok aimed
        obtain ⟨init, steps, walk, dot, dots⟩ := aim_named aimed
        refine ⟨kept, above ++ [name], noNul, fits, ?_⟩
        rw [steps, List.foldlM_append, kept.start, kept.walk walk]
        show List.foldlM _ _ _ = _
        rw [List.foldlM_cons, follow, if_neg dot, if_neg dots, entry?, if_neg short,
          node?_put below, if_pos rfl]
        rfl

theorem leaves_ensureDirectory (t : Tree) (path : String) :
    Leaves [] t (t.ensureDirectory path).2 ∧
      ((t.ensureDirectory path).1 = .ok () →
        ∃ home, (t.ensureDirectory path).2.Leads path home) := by
  unfold ensureDirectory
  split
  · next changed made =>
    obtain ⟨kept, leads⟩ := leaves_withDirectory made
    exact ⟨kept, fun _ => leads⟩
  · next e failed =>
    refine ⟨.refl [] t, fun done => ?_⟩
    by_cases there : t.isDirectory path
    · unfold isDirectory at there
      split at there
      · next found => exact ⟨_, leads_of_find found⟩
      · contradiction
    · simp [there] at done

theorem leaves_ensureDirectories (t : Tree) (paths : List String) :
    Leaves [] t (t.ensureDirectories paths).2 ∧
      ((t.ensureDirectories paths).1 = .ok () → ∀ path, paths.head? = some path →
        ∃ home, (t.ensureDirectories paths).2.Leads path home) := by
  induction paths generalizing t with
  | nil => exact ⟨.refl [] t, nofun⟩
  | cons path above ih =>
    unfold ensureDirectories
    split
    · next none =>
      refine ⟨.refl [] t, fun _ first same => ?_⟩
      obtain rfl := Option.some.inj same
      rw [none]
      exact ⟨_, leads_empty t⟩
    · split
      · split
        · next u made =>
          -- The directory above is there now, so this one is tried again.
          have before := (ih t).1
          rw [made] at before
          obtain ⟨kept, leads⟩ := leaves_ensureDirectory u path
          refine ⟨before.trans kept, fun done first same => ?_⟩
          obtain rfl := Option.some.inj same
          exact leads done
        · next failed =>
          exact ⟨(ih t).1, fun done => (failed _ (Prod.ext done rfl)).elim⟩
      · next result _ =>
        obtain ⟨kept, leads⟩ := leaves_ensureDirectory t path
        refine ⟨kept, fun done first same => ?_⟩
        obtain rfl := Option.some.inj same
        exact leads done

theorem head?_upwards (path : String) : (Path.upwards path).head? = some path := by
  unfold Path.upwards
  cases (Path.pieces path.toList).length with
  | zero => rfl
  | succ n =>
    unfold Path.upwardsFrom
    split <;> rfl

/-- Directories are added, and where that succeeds the path leads to one. -/
theorem ends_makeDirectories (t : Tree) (path : String) :
    Ends Tree.serve (makeDirectories path) t fun r u =>
      Leaves [] t u ∧ (r = .ok () → u.Leads path (t.routeOf path)) := by
  obtain ⟨kept, leads⟩ := leaves_ensureDirectories t (Path.upwards path)
  refine ⟨kept, fun done => ?_⟩
  obtain ⟨home, leads⟩ := leads done path (head?_upwards path)
  rwa [← kept.routeOf, ← leads.eq_routeOf]

/-! ## Replies -/

theorem serve_read (t : Tree) (path : String) : t.serve (.read path) =
    ((t.find path).bind fun found => Node.contents found.2, t) := rfl

theorem serve_create (t : Tree) (path : String) : t.serve (.create path) =
    t.settle ((t.place path).map (t.fill [])) := rfl

theorem serve_ensure (t : Tree) (path : String) : t.serve (.ensure path) =
    t.settle ((t.place path).map fun found =>
      if found.2.isNone then t.fill [] found else t) := rfl

theorem serve_write (t : Tree) (path : String) (bytes : Bytes) : t.serve (.write path bytes) =
    t.settle ((t.find path).bind fun found =>
      (Node.contents found.2).map fun _ => t.fill bytes (found.1, some found.2)) := rfl

theorem serve_sync (t : Tree) (path : String) : t.serve (.sync path) =
    ((t.find path).bind fun found =>
      if found.2 = .stream then .error .badArgument else .ok (), t) := rfl

theorem serve_rename (t : Tree) (source target : String) : t.serve (.rename source target) =
    t.settle ((t.find source).bind fun old =>
      (t.place target).bind fun new =>
        (Node.contents old.2).map fun bytes => (t.remove old.1).put new.1 (.file bytes)) := rfl

theorem serve_lock (t : Tree) (path : String) (wait : Duration) : t.serve (.lock path wait) =
    match t.find path with
    | .error _ => (false, t)
    | .ok (route, _) =>
      if t.locked.contains route then (false, t)
      else (true, { t with locked := route :: t.locked }) := rfl

theorem serve_unlock (t : Tree) (path : String) : t.serve (.unlock path) =
    match t.find path with
    | .error _ => ((), t)
    | .ok (route, _) => ((), { t with locked := t.locked.erase route }) := rfl

/-! ## Files in a directory -/

/-- A name in a directory stands for something. -/
structure Has (t : Tree) (directory name : String) (home : Route) : Prop where
  leads : t.Leads directory home
  fits : tooLong directory name = false
  there : t.node? (home ++ [name]) ≠ none

theorem Keeps.has (h : Keeps changed t u) {directory name : String}
    (other : home ++ [name] ∉ changed) (has : t.Has directory name home) :
    u.Has directory name home := by
  refine ⟨h.leads has.leads, has.fits, fun none => ?_⟩
  rcases h.others _ other with same | ⟨missing, -⟩
  · exact has.there (same.symm.trans none)
  · exact has.there missing

section Names

variable {directory name : String} (leads : t.Leads directory home) (isName : Path.IsName name)
include leads isName

/-- Reading gives the contents of what stands there. -/
theorem ends_read : Ends Tree.serve (read (joinPath directory name)) t fun r u =>
    u = t ∧ r = if tooLong directory name then .error .nameTooLong
      else match t.node? (home ++ [name]) with
        | some node => node.contents
        | none => .error .notFound := by
  simp only [Ends, read, ExceptT.run_mk, ask, Program.run, serve_read]
  rw [leads.find_joinPath isName]
  cases tooLong directory name with
  | true => exact ⟨trivial, rfl⟩
  | false => cases t.node? (home ++ [name]) <;> exact ⟨trivial, rfl⟩

/-- A file is made durable where one is found, and a stream cannot be. -/
theorem ends_sync : Ends Tree.serve (sync (joinPath directory name)) t fun r u =>
    u = t ∧ (r = .ok () → t.node? (home ++ [name]) ≠ some .stream) := by
  simp only [Ends, sync, ExceptT.run_mk, ask, Program.run, serve_sync]
  rw [leads.find_joinPath isName]
  refine ⟨trivial, fun done stream => ?_⟩
  rw [stream] at done
  cases long : tooLong directory name <;> rw [long] at done <;> contradiction

theorem ends_create : Ends Tree.serve (create (joinPath directory name)) t fun _ u =>
    Leaves [home ++ [name]] t u := by
  have below : home ++ [name] ≠ [] := by simp
  simp only [Ends, create, ExceptT.run_mk, ask, Program.run, serve_create]
  rw [leads.place_joinPath isName]
  cases tooLong directory name with
  | true => exact .refl _ t
  | false =>
    cases there : t.node? (home ++ [name]) with
    | none => exact leaves_put below (by simp [there]) []
    | some node =>
      cases node with
      | directory => exact .refl _ t
      | file _ => exact leaves_put below (by simp [there]) []
      | stream => exact .refl _ t

/-- What is written is in the file, unless it is a stream.  A file has to be there. -/
theorem ends_write (contents : Bytes) :
    Ends Tree.serve (write (joinPath directory name) contents) t fun r u =>
      Leaves [home ++ [name]] t u ∧
        (t.node? (home ++ [name]) ≠ none → u.node? (home ++ [name]) ≠ none) ∧
        (r = .ok () → u.node? (home ++ [name]) = some (.file contents) ∨
          u.node? (home ++ [name]) = some .stream) := by
  have below : home ++ [name] ≠ [] := by simp
  simp only [Ends, write, ExceptT.run_mk, ask, Program.run, serve_write]
  rw [leads.find_joinPath isName]
  cases tooLong directory name with
  | true => exact ⟨.refl _ t, id, by rintro ⟨⟩⟩
  | false =>
    cases there : t.node? (home ++ [name]) with
    | none => exact ⟨.refl _ t, (absurd rfl ·), by rintro ⟨⟩⟩
    | some node =>
      cases node with
      | directory => exact ⟨.refl _ t, fun _ => by simp [settle, Except.bind, Node.contents,
          Except.map, there], by rintro ⟨⟩⟩
      | file _ =>
        have written : (t.put (home ++ [name]) (.file contents)).node? (home ++ [name]) =
          some (.file contents) := (node?_put below _ _).trans (if_pos rfl)
        refine ⟨leaves_put below (by simp [there]) contents, fun _ none => ?_,
          fun _ => .inl written⟩
        exact Option.some_ne_none _ (written.symm.trans none)
      | stream =>
        refine ⟨.refl _ t, fun _ none => ?_, fun _ => .inr there⟩
        exact Option.some_ne_none _ (there.symm.trans none)

/-- A file is created unless something stands there. -/
theorem ends_ensure : Ends Tree.serve (ensure (joinPath directory name)) t fun r u =>
    Leaves [home ++ [name]] t u ∧ (r = .ok () → u.Has directory name home) := by
  have below : home ++ [name] ≠ [] := by simp
  simp only [Ends, ensure, ExceptT.run_mk, ask, Program.run, serve_ensure]
  rw [leads.place_joinPath isName]
  cases fits : tooLong directory name with
  | true => exact ⟨.refl _ t, by rintro ⟨⟩⟩
  | false =>
    cases there : t.node? (home ++ [name]) with
    | none =>
      have kept : Leaves [home ++ [name]] t (t.put (home ++ [name]) (.file [])) :=
        leaves_put below (by simp [there]) []
      have written : (t.put (home ++ [name]) (.file [])).node? (home ++ [name]) = some (.file []) :=
        (node?_put below _ _).trans (if_pos rfl)
      refine ⟨kept, fun _ => ⟨kept.leads leads, fits, fun none => ?_⟩⟩
      exact Option.some_ne_none _ (written.symm.trans none)
    | some node =>
      have has : t.Has directory name home := ⟨leads, fits, by simp [there]⟩
      cases node with
      | directory => exact ⟨.refl _ t, by rintro ⟨⟩⟩
      | file _ => exact ⟨.refl _ t, fun _ => has⟩
      | stream => exact ⟨.refl _ t, fun _ => has⟩

/-- A file is moved as a whole, or everything stays. -/
theorem ends_rename {target : String} (isTarget : Path.IsName target) (ne : name ≠ target) :
    Ends Tree.serve (rename (joinPath directory name) (joinPath directory target)) t
      fun r u => (∀ e, r = .error e → u = t) ∧
        (r = .ok () → Leaves [home ++ [name], home ++ [target]] t u ∧
          ∀ contents, t.node? (home ++ [name]) = some (.file contents) →
            u.node? (home ++ [target]) = some (.file contents)) := by
  have below : ∀ n : String, home ++ [n] ≠ [] := by simp
  have apart : home ++ [target] ≠ home ++ [name] := by simpa using Ne.symm ne
  simp only [Ends, rename, ExceptT.run_mk, ask, Program.run, serve_rename]
  rw [leads.find_joinPath isName, leads.place_joinPath isTarget]
  cases tooLong directory name with
  | true => exact ⟨fun _ _ => rfl, by rintro ⟨⟩⟩
  | false =>
    cases source : t.node? (home ++ [name]) with
    | none => exact ⟨fun _ _ => rfl, by rintro ⟨⟩⟩
    | some old =>
      cases tooLong directory target with
      | true => exact ⟨fun _ _ => rfl, by rintro ⟨⟩⟩
      | false =>
        by_cases blocked : t.node? (home ++ [target]) = some .directory
        · rw [if_pos blocked]
          cases old <;> exact ⟨fun _ _ => rfl, by rintro ⟨⟩⟩
        have moved : ∀ contents, old ≠ .directory →
            Leaves [home ++ [name], home ++ [target]] t
              ((t.remove (home ++ [name])).put (home ++ [target]) (.file contents)) := by
          intro contents file
          have removed : Leaves [home ++ [name]] t (t.remove (home ++ [name])) :=
            leaves_remove (below name) fun there => file (Option.some.inj (source.symm.trans there))
          refine (removed.mono (by simp)).trans ((leaves_put (below target) ?_ contents).mono ?_)
          · rwa [node?_remove (below name), if_neg apart]
          · simp
        rw [if_neg blocked]
        cases old with
        | directory => exact ⟨fun _ _ => rfl, by rintro ⟨⟩⟩
        | file bytes =>
          refine ⟨by rintro _ ⟨⟩, fun _ => ⟨moved bytes (by simp), fun contents same => ?_⟩⟩
          obtain rfl : bytes = contents := by simpa using same
          exact (node?_put (below target) _ _).trans (if_pos rfl)
        | stream =>
          refine ⟨by rintro _ ⟨⟩, fun _ => ⟨moved [] (by simp), fun contents same => ?_⟩⟩
          simp at same

end Names

section Locks

variable {directory name : String} (has : t.Has directory name home) (isName : Path.IsName name)
include has isName

theorem Has.find_eq : ∃ node, t.find (joinPath directory name) = .ok (home ++ [name], node) := by
  obtain ⟨node, there⟩ := Option.ne_none_iff_exists'.1 has.there
  refine ⟨node, ?_⟩
  rw [has.leads.find_joinPath isName, has.fits, there]
  rfl

/-- A lock is taken unless somebody holds it. -/
theorem Has.serve_lock (wait : Duration) : t.serve (.lock (joinPath directory name) wait) =
    if t.locked.contains (home ++ [name]) then (false, t)
    else (true, { t with locked := (home ++ [name]) :: t.locked }) := by
  obtain ⟨node, found⟩ := has.find_eq isName
  rw [Tree.serve_lock, found]

theorem Has.serve_unlock : t.serve (.unlock (joinPath directory name)) =
    ((), { t with locked := t.locked.erase (home ++ [name]) }) := by
  obtain ⟨node, found⟩ := has.find_eq isName
  rw [Tree.serve_unlock, found]

end Locks

/-- Locks are none of the nodes. -/
theorem keeps_locked (t : Tree) (locked : List Route) : Keeps [] t { t with locked } :=
  ⟨rfl, fun _ h => h, fun _ _ => .inl rfl⟩

/-- A directory itself can always be made durable. -/
theorem Leads.ends_sync_itself {directory : String} (leads : t.Leads directory home) :
    Ends Tree.serve (sync (DataDirectory.itself directory)) t fun r u =>
      r = .ok () ∧ u = t := by
  have found : ∃ route, t.find (DataDirectory.itself directory) = .ok (route, .directory) := by
    unfold DataDirectory.itself
    split
    · exact ⟨t.here, rfl⟩
    · next some_step => exact ⟨home, leads.find some_step⟩
  obtain ⟨route, found⟩ := found
  simp only [Ends, sync, ExceptT.run_mk, ask, Program.run, serve_sync]
  rw [found]
  exact ⟨rfl, trivial⟩

end SlashingGuard.Disk.Tree
