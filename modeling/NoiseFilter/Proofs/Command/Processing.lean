import Mathlib
import NoiseFilter.Command.Run
import NoiseFilter.Engine.Script
import NoiseFilter.Proofs.Configuration.Loading
import NoiseFilter.Proofs.Files.Keeping

/-!
# A file is processed with a valid setup or not at all

Processing a file overwrites another, so all that can be wrong with the request is found out first. A
`Command.Setup` is what has to be there: a stored configuration whose threshold is a probability, a
threshold that is one after the options were put in as well, and an input that can be read. The first check
is not made good by the second: a stored threshold out of range is refused although `--threshold` would
replace it.

* Without a setup the command fails and the tree is as it was (`Command.runProcess_of_invalid`).
* With one, the replay gets the stored configuration with the given options put into it
  (`Command.Overrides`), and what it writes is what the output holds in the end
  (`Command.processed_of_keeps`). No other place changes.

The input was read to its end before the output is made empty, so it may be the output itself.
-/

namespace NoiseFilter.Command

open Binary

variable {pool engine : Type}

/-! ### What has to be there -/

/-- **A valid setup** for processing a file, with the configuration that is stored and the audio that the
input holds. -/
structure Setup (t : FileTree) (place : Option String) (w : Processing) (c : Configuration)
    (pcm : Bytes) : Prop where
  stored : Configuration.Stored t w.config place c
  /-- the threshold that is stored is good itself -/
  threshold : c.filter.threshold.IsProbability
  /-- and so is the one that is used -/
  overridden : (w.threshold.getD c.filter.threshold).IsProbability
  input : t.read w.input = .ok pcm

/-- **The options put into a configuration**, each into its place, and nothing else. -/
structure Overrides (w : Processing) (c c' : Configuration) : Prop where
  enabled : c'.filter.enabled = (w.enable || c.filter.enabled)
  threshold : c'.filter.threshold = w.threshold.getD c.filter.threshold
  packetBytes : c'.packetBytes = w.packetBytes.getD c.packetBytes
  aggressive : c'.filter.aggressive = c.filter.aggressive
  carryRemainder : c'.filter.carryRemainder = c.filter.carryRemainder
  payloadType : c'.payloadType = c.payloadType
  ssrc : c'.ssrc = c.ssrc

/-- There is one configuration with the options put in. -/
theorem overrides_iff {w : Processing} {c c' : Configuration} : Overrides w c c' ↔ c' = w.override c := by
  constructor
  · rintro ⟨henabled, hthreshold, hpackets, haggressive, hcarry, htype, hssrc⟩
    obtain ⟨⟨enabled, threshold, aggressive, carry⟩, packets, type, ssrc⟩ := c'
    subst henabled hthreshold hpackets haggressive hcarry htype hssrc
    rw [Processing.override, Bool.or_comm]
  · rintro rfl
    exact ⟨Bool.or_comm .., rfl, rfl, rfl, rfl, rfl, rfl⟩

/-! ### The command, step by step -/

/-- How a replay that wrote all its output is reported. -/
def ending : Except Replay.Error Replay.Summary → Report
  | .error e => (e.failure?.map Report.failure).getD .abort
  | .ok s => .success (summaryText s)

variable (k : Backend pool engine) (p : pool) (place : Option String) (w : Processing) (t : FileTree)

/-- An input that cannot be read ends the command before the output is touched. -/
theorem replayFile_of_unreadable (c : Configuration) {why : FileError}
    (h : t.read w.input = .error why) :
    ∃ report, (replayFile FileTree.fileSystem k p w c).run t = (report, t) ∧ report.code = 1 := by
  rw [replayFile, FileTree.run_bind (FileTree.run_read t w.input), h]
  exact ⟨.failure ⟨"Failed to read " ++ w.input, [why.message]⟩, rfl, rfl⟩

/-- An output that keeps nothing leaves the tree as it is. -/
theorem replayFile_of_not_keeps (c : Configuration) {pcm : Bytes} (hread : t.read w.input = .ok pcm)
    (h : ∀ target, ¬ t.Keeps w.output target) :
    ((replayFile FileTree.fileSystem k p w c).run t).2 = t := by
  have hwrite := FileTree.write_of_not_keeps h
  rw [replayFile, FileTree.run_bind (FileTree.run_read t w.input), hread]
  rcases hwrite [] with ⟨why, hopen⟩ | hopen
  · rw [FileTree.run_bind (FileTree.run_write_of_error hopen)]
    rfl
  · rw [FileTree.run_bind (FileTree.run_write_of_ok hopen)]
    generalize Replay.run k p pcm c .unlimited = result
    obtain ⟨result, sink⟩ := result
    rcases hwrite sink.toBytes with ⟨why, hlast⟩ | hlast
    · rw [FileTree.run_bind (FileTree.run_write_of_error hlast)]
      cases result <;> rfl
    · rw [FileTree.run_bind (FileTree.run_write_of_ok hlast)]
      cases result <;> rfl

/-- **A readable input and a place for the output**: the output holds in the end what the replay wrote. -/
theorem replayFile_of_keeps (c : Configuration) {pcm : Bytes} {target : List String}
    (hread : t.read w.input = .ok pcm) (h : t.Keeps w.output target) :
    (replayFile FileTree.fileSystem k p w c).run t =
      (ending (Replay.run k p pcm c .unlimited).1,
        (t.put target (.file [])).put target
          (.file (Replay.run k p pcm c .unlimited).2.toBytes)) := by
  rw [replayFile, FileTree.run_bind (FileTree.run_read t w.input), hread,
    FileTree.run_bind (FileTree.run_write_of_ok (h.write_eq []))]
  generalize Replay.run k p pcm c .unlimited = result
  obtain ⟨result, sink⟩ := result
  rw [FileTree.run_bind (FileTree.run_write_of_ok (h.write_put [] sink.toBytes))]
  cases result <;> rfl

/-- **With nothing wrong before it, the command is the replay of the file.** -/
theorem runProcess_of_setup {c : Configuration} {pcm : Bytes} (h : Setup t place w c pcm) :
    (runProcess FileTree.fileSystem k p place w).run t =
      (replayFile FileTree.fileSystem k p w (w.override c)).run t := by
  obtain ⟨r, hrun, hr⟩ := Configuration.load_run t w.config place
  obtain rfl := (hr c).2 ⟨h.stored, h.threshold⟩
  have hcheck : (w.override c).filter.check = .ok () := Settings.check_eq_ok.2 h.overridden
  rw [runProcess, FileTree.run_bind hrun]
  simp only [hcheck]

/-- **Without a setup the command fails**, and nothing was touched. -/
theorem runProcess_of_invalid (h : ∀ c pcm, ¬ Setup t place w c pcm) :
    ∃ report, (runProcess FileTree.fileSystem k p place w).run t = (report, t) ∧ report.code = 1 := by
  obtain ⟨r, hrun, hr⟩ := Configuration.load_run t w.config place
  rw [runProcess, FileTree.run_bind hrun]
  cases r with
  | error why => exact ⟨.failure why.failure, rfl, rfl⟩
  | ok c =>
    obtain ⟨hstored, hthreshold⟩ := (hr c).1 rfl
    cases hcheck : (w.override c).filter.check with
    | error why => exact ⟨.failure (.root why.message), by simp only [hcheck]; rfl, rfl⟩
    | ok =>
      cases hread : t.read w.input with
      | error why =>
        obtain ⟨report, hreport, hcode⟩ := replayFile_of_unreadable k p w t (w.override c) hread
        exact ⟨report, by simp only [hcheck, hreport], hcode⟩
      | ok pcm =>
        exact absurd ⟨hstored, hthreshold, Settings.check_eq_ok.1 hcheck, hread⟩ (h c pcm)

/-- **A file processed in a tree**: the report, and the tree in the end. -/
def processed (k : Backend pool engine) (p : pool) (place : Option String) (w : Processing)
    (t : FileTree) : Report × FileTree :=
  (runProcess FileTree.fileSystem k p place w).run t

/-- **The output of a command with a setup**, where it leads to a place that keeps it: it holds what the
replay wrote, and no other place changed. -/
theorem processed_of_keeps {c : Configuration} {pcm : Bytes} {target : List String}
    (h : Setup t place w c pcm) (hkeeps : t.Keeps w.output target) :
    (processed k p place w t).1 = ending (Replay.run k p pcm (w.override c) .unlimited).1 ∧
      (processed k p place w t).2.read w.output =
        .ok (Replay.run k p pcm (w.override c) .unlimited).2.toBytes ∧
      ∀ other, other ≠ target → FileTree.entry? (processed k p place w t).2 other = t.entry? other := by
  rw [processed, runProcess_of_setup k p place w t h, replayFile_of_keeps k p w t _ h.input hkeeps]
  refine ⟨rfl, (hkeeps.put []).read_put _, fun other hother => ?_⟩
  rw [FileTree.entry?_put_of_ne hother, FileTree.entry?_put_of_ne hother]

/-- **The output is touched only with a valid setup.** For every tree and all options: without a setup the
command fails and nothing is touched. With one, the replay is given the stored configuration with the options
put into it; an output that keeps what is written to it holds in the end what the replay wrote, no other
place changes, and nothing at all changes if the output keeps nothing. The input may be the output: the
report and the content come out the same. -/
theorem processed_touches :
    ((∀ c pcm, ¬ Setup t place w c pcm) →
      (processed k p place w t).1.code = 1 ∧ (processed k p place w t).2 = t) ∧
    ∀ c pcm, Setup t place w c pcm → ∃ c', Overrides w c c' ∧
      (∀ target, t.Keeps w.output target →
        (processed k p place w t).1 = ending (Replay.run k p pcm c' .unlimited).1 ∧
        (processed k p place w t).2.read w.output =
          .ok (Replay.run k p pcm c' .unlimited).2.toBytes ∧
        ∀ other, other ≠ target → FileTree.entry? (processed k p place w t).2 other = t.entry? other) ∧
      ((∀ target, ¬ t.Keeps w.output target) → (processed k p place w t).2 = t) ∧
      ∀ source target, t.Keeps w.input source → t.Keeps w.output target →
        (processed k p place { w with output := w.input } t).1 = (processed k p place w t).1 ∧
        (processed k p place { w with output := w.input } t).2.read w.input =
          (processed k p place w t).2.read w.output := by
  refine ⟨fun h => ?_, fun c pcm h => ⟨w.override c, overrides_iff.2 rfl, ?_, ?_, ?_⟩⟩
  · obtain ⟨report, hrun, hcode⟩ := runProcess_of_invalid k p place w t h
    rw [processed, hrun]
    exact ⟨hcode, rfl⟩
  · exact fun target hkeeps => processed_of_keeps k p place w t h hkeeps
  · intro hkeeps
    rw [processed, runProcess_of_setup k p place w t h, replayFile_of_not_keeps k p w t _ h.input hkeeps]
  · intro source target hsource htarget
    obtain ⟨hreport, hread, -⟩ := processed_of_keeps k p place w t h htarget
    -- what has to be there does not depend on the output
    have hsame : Setup t place { w with output := w.input } c pcm :=
      ⟨h.stored, h.threshold, h.overridden, h.input⟩
    obtain ⟨hreport', hread', -⟩ := processed_of_keeps k p place _ t hsame hsource
    exact ⟨hreport'.trans hreport.symm, hread'.trans hread.symm⟩

/-- A file processed onto itself. -/
theorem processed_touches_itself :
    let t : FileTree := ⟨["w"], [(["w"], .directory), (["w", "in"], .file [1, 2])]⟩
    let w : Processing := ⟨"in", "in", none, true, some .zero, none⟩
    let k := Script.backend ⟨[], [.same]⟩
    Setup t none w .default [1, 2] ∧ t.Keeps "in" ["w", "in"] ∧
      ∃ c', Overrides w .default c' ∧ (processed k 0 none w t).2.read "in" =
        .ok (Replay.run k 0 [1, 2] c' .unlimited).2.toBytes := by
  intro t w k
  have hkeeps : t.Keeps "in" ["w", "in"] := ⟨by cbv, by cbv, by cbv, .inr ⟨_, rfl⟩⟩
  have hsetup : Setup t none w .default [1, 2] := by
    refine ⟨rfl, ?_, ?_, by cbv⟩ <;> rw [Value.isProbability_iff] <;> decide +kernel
  obtain ⟨c', hoverrides, houtput, -⟩ := (processed_touches k 0 none w t).2 _ _ hsetup
  exact ⟨hsetup, hkeeps, c', hoverrides, (houtput _ hkeeps).2.1⟩

end NoiseFilter.Command
