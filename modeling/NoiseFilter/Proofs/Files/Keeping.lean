import Mathlib.Data.List.Basic
import NoiseFilter.Files.Tree

/-!
# What is written is there to be read

A path that leads to a file, or to a place where one can be made, keeps what is written to it
(`FileTree.Keeps`): writing succeeds whatever the content (`FileTree.Keeps.write_eq`), and afterwards the
same path reads as that content (`FileTree.Keeps.read_put`).

The one thing to see is that the path still leads to the same place. A walk goes through directories only,
and no directory is ever overwritten, so a walk that came to its end comes to the same end in the tree
with one file more (`FileTree.walk_put`). For a walk that failed this would be wrong: a name that was
missing may be there now.

Devices are left out on purpose. They accept writing and keep nothing.
-/

namespace NoiseFilter.FileTree

variable {t : FileTree} {path : String} {place target : List String} {content : Bytes}

/-! ### Steps -/

/-- What follows a step goes on with its result, in the tree that it left. -/
theorem run_bind {α β : Type} {x : StateM FileTree α} {r : α} {next : FileTree}
    (h : x.run t = (r, next)) (f : α → StateM FileTree β) : (x >>= f).run t = (f r).run next := by
  rw [StateT.run_bind, h]
  rfl

theorem run_read (t : FileTree) (path : String) :
    (fileSystem.read path).run t = (t.read path, t) := rfl

theorem run_isPresent (t : FileTree) (path : String) :
    (fileSystem.isPresent path).run t = ((t.find path).isOk, t) := rfl

/-- Writing that is refused leaves the tree. -/
theorem run_write_of_error {why : FileError} (h : t.write path content = .error why) :
    (fileSystem.write path content).run t = (.error why, t) := by
  simp only [fileSystem, change, h, StateT.run]

theorem run_write_of_ok {next : FileTree} (h : t.write path content = .ok next) :
    (fileSystem.write path content).run t = (.ok (), next) := by
  simp only [fileSystem, change, h, StateT.run]

/-! ### Entries -/

theorem entry?_put (hplace : place ≠ []) (e : Entry) : FileTree.entry? (t.put place e) place = some e := by
  simp [put, entry?, hplace]

/-- A change at one place shows at no other. -/
theorem entry?_put_of_ne (hne : target ≠ place) (e : Entry) :
    FileTree.entry? (t.put place e) target = t.entry? target := by
  have hlookup : ∀ entries : List (List String × Entry),
      (entries.filter fun x => x.1 != place).lookup target = entries.lookup target := by
    intro entries
    induction entries with
    | nil => rfl
    | cons x entries ih => grind
  have hmiss : (target == place) = false := by simpa using hne
  simp only [put, entry?, List.lookup_cons, hmiss, hlookup]

/-- **A walk that came to its end comes to the same end** in the tree with something else at a place that
is no directory. -/
theorem walk_put (hplace : t.entry? place ≠ some .directory) (e : Entry) :
    ∀ {from_ : List String} {names : List String}, t.walk from_ names = .ok target →
      (t.put place e).walk from_ names = .ok target := by
  intro from_ names
  induction names generalizing from_ with
  | nil => exact id
  | cons name names ih =>
    cases names with
    | nil => exact id
    | cons next names =>
      intro h
      simp only [walk] at h ⊢
      cases hstep : step from_ name with
      | error why =>
        rw [hstep] at h
        cases h
      | ok reached =>
        simp only [hstep] at h ⊢
        have hdirectory : t.entry? reached = some .directory := by
          cases hentry : t.entry? reached with
          | none => rw [hentry] at h; cases h
          | some found => cases found <;> rw [hentry] at h <;> first | rfl | cases h
        -- the walk passes through directories, so not through the place that changed
        have hne : reached ≠ place := fun hsame => hplace (hsame ▸ hdirectory)
        rw [hdirectory] at h
        rw [entry?_put_of_ne hne, hdirectory]
        exact ih h

/-! ### Places for files -/

/-- **A path that keeps what is written to it**: it may name a file, and it leads to a place where one is or
can be made. -/
structure Keeps (t : FileTree) (path : String) (place : List String) : Prop where
  path_ok : checkPath path = .ok ()
  no_slash : path.endsWith "/" = false
  leads : t.walk (t.start path) (names path) = .ok place
  /-- there is a file, or nothing yet -/
  free : t.entry? place = none ∨ ∃ content, t.entry? place = some (.file content)

namespace Keeps

theorem ne_directory (h : t.Keeps path place) : t.entry? place ≠ some .directory := by
  rcases h.free with hfree | ⟨content, hfree⟩ <;> rw [hfree] <;> exact nofun

/-- The root is no place for a file. -/
theorem place_ne_nil (h : t.Keeps path place) : place ≠ [] := by
  rintro rfl
  exact h.ne_directory rfl

/-- **Writing succeeds**, and it changes that one place. -/
theorem write_eq (h : t.Keeps path place) (content : Bytes) :
    t.write path content = .ok (t.put place (.file content)) := by
  rw [write, h.path_ok]
  simp only [h.no_slash, Bool.false_eq_true, if_false, h.leads, fill]
  rcases h.free with hfree | ⟨before, hfree⟩ <;> rw [hfree]

/-- The path leads there still. -/
theorem put (h : t.Keeps path place) (content : Bytes) :
    (t.put place (.file content)).Keeps path place where
  path_ok := h.path_ok
  no_slash := h.no_slash
  leads := walk_put h.ne_directory _ h.leads
  free := .inr ⟨content, entry?_put h.place_ne_nil _⟩

/-- **What was written is read.** -/
theorem read_put (h : t.Keeps path place) (content : Bytes) :
    (t.put place (.file content)).read path = .ok content := by
  have hplace : (t.put place (.file content)).place path = .ok place := by
    rw [FileTree.place, h.path_ok]
    exact (h.put content).leads
  rw [read, find, hplace]
  simp only [entry?_put h.place_ne_nil]

/-- What was written last is what is there. -/
theorem write_put (h : t.Keeps path place) (before content : Bytes) :
    (t.put place (.file before)).write path content =
      .ok ((t.put place (.file before)).put place (.file content)) :=
  (h.put before).write_eq content

end Keeps

/-- **A path that keeps nothing is refused, or leads to a device**: writing to it leaves the tree as it is. -/
theorem write_of_not_keeps (h : ∀ place, ¬ t.Keeps path place) (content : Bytes) :
    (∃ why, t.write path content = .error why) ∨ t.write path content = .ok t := by
  rw [write]
  cases hpath : checkPath path with
  | error why => exact .inl ⟨why, rfl⟩
  | ok =>
    cases hslash : path.endsWith "/" with
    | true => simp only [if_true]; split <;> exact .inl ⟨_, rfl⟩
    | false =>
      cases hwalk : t.walk (t.start path) (names path) with
      | error why => exact .inl ⟨why, by simp⟩
      | ok place =>
        have hfree := fun free => h place ⟨hpath, hslash, hwalk, free⟩
        simp only [Bool.false_eq_true, if_false, fill]
        rcases hentry : t.entry? place with _ | _ | _ | full
        · exact absurd (.inl hentry) hfree
        · exact absurd (.inr ⟨_, hentry⟩) hfree
        · exact .inl ⟨.isDirectory, rfl⟩
        · cases hfull : full && !content.isEmpty with
          | false => exact .inr (by simp [hfull])
          | true => exact .inl ⟨.noSpace, by simp [hfull]⟩

end NoiseFilter.FileTree
