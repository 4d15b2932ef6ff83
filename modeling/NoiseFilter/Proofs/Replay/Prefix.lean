import NoiseFilter.Proofs.Replay.Agreement

/-!
# Sinks that fill up

A sink may fill up at any point of a replay: between two packets, in the middle of a payload, or only
when the end of the audio is drained. What it holds then is the beginning of what a sink without a limit
would hold, and nothing that was written before depends on the failure to come: the pieces of a replay are
the same for every sink (`Replay.run_eq`).

A device need not take a piece in one go. `Sink.Written` are all the ways to write pieces in calls that
each take some bytes, as many as there is room for or fewer, until one fails because there is no room. It
does not matter which of them it is (`Sink.Written.eq`), and there always is one (`Sink.exists_written`).
-/

namespace NoiseFilter

namespace Sink

/-! ### Writing in calls -/

/-- The sink that has taken `bytes` in one call. -/
def accept (s : Sink) (bytes : Bytes) : Sink :=
  ⟨s.room.map (· - bytes.length), bytes :: s.pieces⟩

theorem toBytes_accept (s : Sink) (bytes : Bytes) : (s.accept bytes).toBytes = s.toBytes ++ bytes := by
  rw [toBytes, accept, List.reverse_cons, List.flatten_append, List.flatten_singleton]
  rfl

/-- **Pieces written call by call**: whether all were taken, and the sink afterwards. -/
inductive Written : Sink → List Bytes → Bool → Sink → Prop
  /-- No piece is left. -/
  | done (s : Sink) : Written s [] true s
  /-- All of the first piece is written. -/
  | next {s s' : Sink} {pieces : List Bytes} {taken : Bool} (rest : Written s pieces taken s') :
      Written s ([] :: pieces) taken s'
  /-- A call takes some bytes, for which there is room, and the next goes on behind them. -/
  | call {s s' : Sink} {piece : Bytes} {pieces : List Bytes} {taken : Bool} (count : Nat)
      (hsome : 0 < count) (hle : count ≤ piece.length) (hroom : ∀ room ∈ s.room, count ≤ room)
      (rest : Written (s.accept (piece.take count)) (piece.drop count :: pieces) taken s') :
      Written s (piece :: pieces) taken s'
  /-- A call fails, and it is the last. -/
  | refused {s : Sink} {piece : Bytes} {pieces : List Bytes} (hfull : s.room = some 0)
      (hsome : piece ≠ []) : Written s (piece :: pieces) false s

/-- **It does not matter by which calls pieces are written**: a sink with a limit takes the bytes up to
it, and all were taken if there are no more. -/
theorem Written.eq {s s' : Sink} {pieces : List Bytes} {taken : Bool} (h : Written s pieces taken s') :
    ∀ {room : Nat}, s.room = some room → taken = decide (pieces.flatten.length ≤ room) ∧
      s'.toBytes = s.toBytes ++ pieces.flatten.take room := by
  induction h with
  | done s =>
    intro room _
    rw [List.flatten_nil, List.take_nil, List.append_nil]
    exact ⟨(decide_eq_true (Nat.zero_le _)).symm, rfl⟩
  | next rest ih => exact ih
  | @call s s' piece pieces taken count hsome hle hroom rest ih =>
    intro room hlimit
    have hcount : count ≤ room := hroom room hlimit
    obtain ⟨first, hfirst⟩ : ∃ first, piece.take count = first := ⟨_, rfl⟩
    obtain ⟨after, hafter⟩ : ∃ after, (piece.drop count :: pieces).flatten = after := ⟨_, rfl⟩
    have hlength : first.length = count := by
      rw [← hfirst, List.length_take]
      omega
    have hleft : (s.accept first).room = some (room - count) := by
      rw [accept, hlimit, hlength]
      rfl
    have hjoined : (piece :: pieces).flatten = first ++ after := by
      rw [← hafter, ← hfirst, List.flatten_cons, List.flatten_cons, ← List.append_assoc,
        List.take_append_drop]
    rw [hfirst, hafter] at ih
    obtain ⟨htaken, hbytes⟩ := ih hleft
    have hwhole : first.take room = first := List.take_of_length_le (hlength ▸ hcount)
    rw [hjoined, List.length_append, hbytes, toBytes_accept, List.append_assoc, List.take_append, hwhole,
      hlength]
    refine ⟨htaken.trans (decide_eq_decide.2 ?_), rfl⟩
    omega
  | @refused s piece pieces hfull hsome =>
    intro room hlimit
    obtain rfl : room = 0 := Option.some.inj (hlimit.symm.trans hfull)
    have hpos := List.length_pos_iff.2 hsome
    rw [List.take_zero, List.append_nil, List.flatten_cons, List.length_append]
    refine ⟨(decide_eq_false ?_).symm, rfl⟩
    omega

/-- **Pieces can always be written**, in calls that take all there is room for. -/
theorem exists_written (pieces : List Bytes) : ∀ s : Sink, ∃ taken s', Written s pieces taken s' := by
  induction pieces with
  | nil => exact fun s => ⟨true, s, .done s⟩
  | cons piece pieces ih =>
    intro s
    by_cases hne : piece = []
    · obtain ⟨taken, s', hrest⟩ := ih s
      subst hne
      exact ⟨taken, s', .next hrest⟩
    have hpos := List.length_pos_iff.2 hne
    by_cases hfits : ∀ room ∈ s.room, piece.length ≤ room
    · -- one call takes all of it
      obtain ⟨taken, s', hrest⟩ := ih (s.accept (piece.take piece.length))
      refine ⟨taken, s', .call piece.length hpos (Nat.le_refl _) hfits ?_⟩
      rw [List.drop_length]
      exact .next hrest
    · -- one call fills the sink, unless it is full already, and the next fails
      obtain ⟨room, hroom, hlong⟩ : ∃ room, s.room = some room ∧ room < piece.length := by
        simpa only [Classical.not_forall, Nat.not_le, exists_prop, Option.mem_def] using hfits
      rcases Nat.eq_zero_or_pos room with rfl | hsome
      · exact ⟨false, s, .refused hroom hne⟩
      refine ⟨false, s.accept (piece.take room), .call room hsome (Nat.le_of_lt hlong)
        (fun room' hroom' => ?_) (.refused ?_ ?_)⟩
      · rw [hroom, Option.mem_some_iff] at hroom'
        exact Nat.le_of_eq hroom'
      · rw [accept, hroom, List.length_take, Nat.min_eq_left (Nat.le_of_lt hlong)]
        exact congrArg some (Nat.sub_self room)
      · rw [ne_eq, List.drop_eq_nil_iff]
        omega

end Sink

namespace Replay

variable {pool engine : Type}

/-! ### Replays into a sink with a limit -/

/-- **A sink that fills up gets the beginning.** A replay into a sink that takes `limit` bytes succeeds if
the recording has no more, and then as into a sink without a limit; otherwise it fails because the sink is
full. Either way the sink holds the first bytes of what a sink without a limit holds, as many as it takes
or as there are; and a device that takes the pieces of the replay in calls of its own holds the same. -/
theorem run_limited (k : Backend pool engine) (p : pool) {e : engine} (hcreate : (k.create p).1 = .ok e)
    (pcm : Bytes) (c : Configuration)
    (hsize : c.payloadBytes * 2 + 256 ≤ Configuration.memoryLimit) (limit : Nat) :
    ((∃ s, (run k p pcm c (.limited limit)).1 = .ok s) ↔ pcm.length ≤ limit) ∧
      (run k p pcm c (.limited limit)).1 =
        (if pcm.length ≤ limit then (run k p pcm c .unlimited).1 else .error .sinkFull) ∧
      (run k p pcm c (.limited limit)).2.toBytes =
        (run k p pcm c .unlimited).2.toBytes.take (min limit pcm.length) ∧
      (run k p pcm c (.limited limit)).2.toBytes.length = min limit pcm.length ∧
      ∀ taken sink, Sink.Written (.limited limit) (pieces k e pcm c) taken sink →
        (taken = true ↔ pcm.length ≤ limit) ∧
          sink.toBytes = (run k p pcm c (.limited limit)).2.toBytes := by
  have hlength := (flatten_pieces k e pcm c).1
  obtain ⟨bytes, hbytes⟩ : ∃ bytes, (pieces k e pcm c).flatten = bytes := ⟨_, rfl⟩
  obtain ⟨hall, hunlimited⟩ := Sink.writeAll_unlimited (pieces k e pcm c) .unlimited rfl
  obtain ⟨htaken, hlimited⟩ :=
    Sink.writeAll_limited (pieces k e pcm c) (.limited limit) limit rfl
  rw [hbytes] at hlength hunlimited htaken hlimited
  change _ = [] ++ bytes at hunlimited
  change _ = [] ++ bytes.take limit at hlimited
  rw [List.nil_append] at hunlimited hlimited
  rw [hlength] at htaken
  have htake : bytes.take (min limit pcm.length) = bytes.take limit := by
    rw [← hlength, Nat.min_comm]
    exact List.take_eq_take_iff.2 (by omega)
  rw [run_eq k p hcreate pcm c _ hsize, run_eq k p hcreate pcm c _ hsize, ending_eq, ending_eq, hall,
    htaken]
  dsimp only
  rw [hunlimited, hlimited, htake, if_pos rfl]
  refine ⟨?_, ?_, rfl, ?_, fun taken sink hwritten => ?_⟩
  · by_cases hfits : pcm.length ≤ limit
    · rw [decide_eq_true hfits, if_pos rfl]
      exact iff_of_true ⟨_, rfl⟩ hfits
    · rw [decide_eq_false hfits, if_neg Bool.false_ne_true]
      exact iff_of_false (fun ⟨s, hs⟩ => nomatch hs) hfits
  · by_cases hfits : pcm.length ≤ limit
    · rw [decide_eq_true hfits, if_pos rfl, if_pos hfits]
    · rw [decide_eq_false hfits, if_neg Bool.false_ne_true, if_neg hfits]
  · rw [List.length_take, hlength]
  · obtain ⟨hcalls, hheld⟩ := hwritten.eq rfl
    rw [hbytes, hlength] at hcalls
    rw [hbytes] at hheld
    exact ⟨by rw [hcalls, decide_eq_true_iff], hheld⟩

/-- A recording whose packets are carried on: a sink of a thousand bytes fills up inside its second packet,
with the first thousand bytes of what there is to write. -/
theorem run_limited_of_thousand :
    ¬ (∃ s, (run Network.inert.backend () (Bytes.zeros 2501) ⟨Filter.carrying, 1001, 111, 7⟩
        (.limited 1000)).1 = .ok s) ∧
      (run Network.inert.backend () (Bytes.zeros 2501) ⟨Filter.carrying, 1001, 111, 7⟩
          (.limited 1000)).2.toBytes =
        (run Network.inert.backend () (Bytes.zeros 2501) ⟨Filter.carrying, 1001, 111, 7⟩
          .unlimited).2.toBytes.take 1000 := by
  obtain ⟨hsucceeds, -, hbytes, -⟩ := run_limited Network.inert.backend () rfl (Bytes.zeros 2501)
    ⟨Filter.carrying, 1001, 111, 7⟩ (by decide) 1000
  rw [Bytes.length_zeros] at hsucceeds hbytes
  exact ⟨fun h => absurd (hsucceeds.1 h) (by decide), hbytes⟩

end Replay

end NoiseFilter
