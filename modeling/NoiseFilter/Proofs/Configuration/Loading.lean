import NoiseFilter.Configuration.Storage
import NoiseFilter.Proofs.Binary.Exact
import NoiseFilter.Proofs.Files.Keeping

/-!
# What is loaded

Loading reads a file at most and changes none. What it comes to is settled by the tree alone:
`Configuration.Stored` is the configuration that the tree holds for the paths given, and
`Configuration.load_run` says that it is loaded exactly if its threshold is a probability. So a threshold
that is not a number, infinite or out of range is never loaded, from whatever document.
-/

namespace NoiseFilter

open Binary

/-! ### The check -/

/-- Settings are good exactly if their threshold is a probability. -/
theorem Settings.check_eq_ok {s : Settings} : s.check = .ok () ↔ s.threshold.IsProbability := by
  rw [Value.isProbability_iff, check, ← Bool.and_eq_true]
  split <;> simp [*]

namespace Configuration

theorem checked_eq_ok {c c' : Configuration} :
    c.checked = .ok c' ↔ c = c' ∧ c.filter.threshold.IsProbability := by
  rw [← Settings.check_eq_ok, checked]
  cases hcheck : c.filter.check <;> simp

/-! ### The file -/

/-- **The file that is used**, if one is: the path given, or else the default place if something is there. -/
def source? (t : FileTree) (given place : Option String) : Option String :=
  given.or (place.filter fun path => (t.find path).isOk)

/-- **The configuration that a tree holds**: the one in the file that is used, which has to be a text, or
the default one if none is used. -/
def Stored (t : FileTree) (given place : Option String) (c : Configuration) : Prop :=
  match source? t given place with
  | none => c = default
  | some path => ∃ content, t.read path = .ok content ∧ (Json.utf8? content).isSome ∧
      parse content = .ok c

variable (t : FileTree) (given place : Option String)

theorem ofContent_eq_ok {path : String} {content : Bytes} {c : Configuration} :
    ofContent path content = .ok c ↔ (Json.utf8? content).isSome ∧ parse content = .ok c := by
  rw [ofContent]
  cases Json.utf8? content with
  | none => simp
  | some text => cases parse content <;> simp

/-- A file is read, and the tree stays. -/
theorem readFile_run (path : String) : ∃ r, (readFile FileTree.fileSystem path).run t = (r, t) ∧
    ∀ c, r = .ok c ↔ ∃ content, t.read path = .ok content ∧ (Json.utf8? content).isSome ∧
      parse content = .ok c := by
  rw [readFile, FileTree.run_bind (FileTree.run_read t path)]
  cases hread : t.read path with
  | error why => exact ⟨.error (.unreadable path why), rfl, by simp⟩
  | ok content => exact ⟨ofContent path content, rfl, fun c => by simp [ofContent_eq_ok]⟩

/-- What the file that is used holds, or the default one: a configuration before its check. -/
def find (given place : Option String) : StateM FileTree (Except LoadError Configuration) :=
  match given, place with
  | some path, _ => readFile FileTree.fileSystem path
  | none, some path => do
    if ← FileTree.fileSystem.isPresent path then readFile FileTree.fileSystem path
    else pure (.ok default)
  | none, none => pure (.ok default)

/-- What is found is what is stored. -/
theorem find_run : ∃ r, (find given place).run t = (r, t) ∧
    ∀ c, r = .ok c ↔ Stored t given place c := by
  have hdefault : ∀ c, (.ok default : Except LoadError Configuration) = .ok c ↔ c = default :=
    fun c => by rw [Except.ok.injEq, eq_comm]
  obtain _ | path := given
  · obtain _ | path := place
    · exact ⟨.ok default, rfl, hdefault⟩
    · cases hpresent : (t.find path).isOk with
      | false =>
        have hsource : source? t none (some path) = none := by simp [source?, Option.filter, hpresent]
        refine ⟨.ok default, ?_, fun c => by simp only [Stored, hsource, hdefault]⟩
        rw [find, FileTree.run_bind (FileTree.run_isPresent t path), hpresent]
        rfl
      | true =>
        have hsource : source? t none (some path) = some path := by
          simp [source?, Option.filter, hpresent]
        obtain ⟨r, hrun, hr⟩ := readFile_run t path
        refine ⟨r, ?_, fun c => by simp only [Stored, hsource, hr]⟩
        rw [← hrun, find, FileTree.run_bind (FileTree.run_isPresent t path), hpresent]
        rfl
  · exact readFile_run t path

/-- **Loading changes nothing, and loads what is stored if its threshold is a probability.** -/
theorem load_run : ∃ r, (load FileTree.fileSystem given place).run t = (r, t) ∧
    ∀ c, r = .ok c ↔ Stored t given place c ∧ c.filter.threshold.IsProbability := by
  have hload : load FileTree.fileSystem given place =
      find given place >>= fun found => pure (found.bind checked) := by
    obtain _ | path := given
    · obtain _ | path := place
      · rfl
      · simp only [load, find, bind_assoc]
        refine bind_congr fun present => ?_
        cases present
        · rfl
        · exact bind_congr fun found => by cases found <;> rfl
    · exact bind_congr fun found => by cases found <;> rfl
  obtain ⟨found, hrun, hfound⟩ := find_run t given place
  rw [hload, FileTree.run_bind hrun]
  cases found with
  | error why => exact ⟨.error why, rfl, fun c => by rw [← hfound]; simp⟩
  | ok c =>
    refine ⟨c.checked, rfl, fun c' => ?_⟩
    rw [checked_eq_ok, ← hfound, Except.ok.injEq]
    exact and_congr_right fun hsame => by rw [hsame]

end Configuration

end NoiseFilter
