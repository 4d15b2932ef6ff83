import NoiseFilter.Proofs.Stream.Suppression

/-!
# Payload after payload

However a stream comes in, an accumulator makes the same of it. Fed payload by payload it hands out the
frames that it would hand out for all of them at once, and what waits in the end is the same too
(`Accumulator.feedAll_eq_feed`); where the payloads end has no part in it. Nothing is asked of what
waits at first: it may be as long as `Accumulator.restore` can make it, and the first payload, even an
empty one, brings it below a frame.

Taking the waiting bytes out and putting them back is no step at all, and to say so takes an observer. An
`Accumulator.Operation` is one thing to do with an accumulator and `Accumulator.observe` all that a
run of them shows. Two accumulators are told apart by some run exactly if different bytes wait in them
(`Accumulator.observe_eq_iff`), so the bytes that wait are all there is to one.
-/

namespace NoiseFilter

namespace Accumulator

/-! ### Feeding in turn -/

/-- **Payloads in turn**: the frames of every call, and the accumulator after the last. -/
def feedAll (a : Accumulator) : List Bytes → List (List WireFrame) × Accumulator
  | [] => ([], a)
  | payload :: payloads =>
    let (frames, next) := a.feed payload
    let (calls, last) := next.feedAll payloads
    (frames :: calls, last)

@[simp] theorem feedAll_nil (a : Accumulator) : a.feedAll [] = ([], a) := rfl

theorem feedAll_cons (a : Accumulator) (payload : Bytes) (payloads : List Bytes) :
    a.feedAll (payload :: payloads) =
      ((a.feed payload).1 :: ((a.feed payload).2.feedAll payloads).1,
        ((a.feed payload).2.feedAll payloads).2) := rfl

/-- Less than a frame waits after a payload, whatever waited before it. -/
theorem size_feed_lt (a : Accumulator) (payload : Bytes) : (a.feed payload).2.size < frameBytes :=
  cut_rest_lt _

/-- **Feeding goes on where it stopped**: two payloads are fed like the one that they join up to. -/
theorem feed_append (a : Accumulator) (first second : Bytes) :
    a.feed (first ++ second) = ((a.feed first).1 ++ ((a.feed first).2.feed second).1,
      ((a.feed first).2.feed second).2) := by
  have hjoin : a.waiting ++ (first ++ second) = (a.waiting ++ first) ++ second :=
    (List.append_assoc ..).symm
  simp only [feed, hjoin, cut_append (a.waiting ++ first) second]

/-- **Payloads in turn come to what they come to at once.** -/
theorem feedAll_eq_feed (a : Accumulator) (payload : Bytes) (payloads : List Bytes) :
    ((a.feedAll (payload :: payloads)).1.flatten, (a.feedAll (payload :: payloads)).2) =
      a.feed (payload :: payloads).flatten := by
  -- the induction is on the payloads after the first: before it, more than a frame may wait
  induction payloads generalizing a payload with
  | nil => simp [feedAll_cons]
  | cons next payloads ih =>
    rw [feedAll_cons, List.flatten_cons, List.flatten_cons, feed_append, ← ih]

/-! ### What an accumulator shows -/

/-- **One thing to do with an accumulator.** -/
inductive Operation
  | feed (payload : Bytes)
  | take
  | restore (bytes : Bytes)
  | clear

/-- What one operation shows: the frames that it handed out, the bytes that it took out, and the bytes
that wait after it. -/
structure Shown where
  frames : List WireFrame
  taken : Bytes
  waiting : Bytes
deriving DecidableEq

/-- **An operation**: what it shows, and the accumulator after it. -/
def perform (a : Accumulator) : Operation → Shown × Accumulator
  | .feed payload => (⟨(a.feed payload).1, [], (a.feed payload).2.waiting⟩, (a.feed payload).2)
  | .take => (⟨[], a.take.1, a.take.2.waiting⟩, a.take.2)
  | .restore bytes => (⟨[], [], (a.restore bytes).waiting⟩, a.restore bytes)
  | .clear => (⟨[], [], a.clear.waiting⟩, a.clear)

/-- **What operations show**, one after the other. -/
def observe (a : Accumulator) : List Operation → List Shown
  | [] => []
  | operation :: operations => (a.perform operation).1 :: (a.perform operation).2.observe operations

/-- **The bytes that wait are all there is to see of an accumulator.** -/
theorem observe_eq_iff (a b : Accumulator) :
    (∀ operations, a.observe operations = b.observe operations) ↔ a.waiting = b.waiting := by
  constructor
  · intro h
    have htake := h [.take]
    simp only [observe, perform, take, List.cons.injEq, Shown.mk.injEq] at htake
    exact htake.1.2.1
  · intro h operations
    obtain rfl : a = b := by cases a; cases b; cases h; rfl
    rfl

/-! ### The queue -/

/-- **Payload after payload, frames come out in the order of arrival**, whatever waits at first. Each call
leaves less than a frame; the frames of all calls and what waits after the last are what came in, and
they are those of one call with everything. Taking hands out what waits and leaves nothing, and whatever
accumulator is then given those bytes back shows what the one before would have shown. -/
theorem feedAll_in_order (a : Accumulator) {payloads : List Bytes} (hne : payloads ≠ []) :
    (∀ frames ∈ (a.feedAll payloads).1, ∀ frame ∈ frames, frame.bytes.length = frameBytes) ∧
      WireFrame.join (a.feedAll payloads).1.flatten ++ (a.feedAll payloads).2.waiting =
        a.waiting ++ payloads.flatten ∧
      (∀ calls, 0 < calls → (a.feedAll (payloads.take calls)).2.size < frameBytes) ∧
      ((a.feedAll payloads).1.flatten, (a.feedAll payloads).2) = a.feed payloads.flatten ∧
      a.take.1 = a.waiting ∧ a.take.2.size = 0 ∧
      ∀ (b : Accumulator) (operations : List Operation),
        (b.restore a.take.1).observe operations = a.observe operations := by
  obtain ⟨payload, payloads, rfl⟩ := List.exists_cons_of_ne_nil hne
  have hone := a.feedAll_eq_feed payload payloads
  refine ⟨fun _ _ frame _ => frame.length_bytes, ?_, ?_, hone, rfl, rfl, fun b => ?_⟩
  · have hjoin := a.join_feed (payload :: payloads).flatten
    rwa [← hone] at hjoin
  · rintro (_ | calls) hcalls
    · exact absurd hcalls (Nat.lt_irrefl 0)
    · have hpart := a.feedAll_eq_feed payload (payloads.take calls)
      rw [List.take_succ_cons, congrArg Prod.snd hpart]
      exact a.size_feed_lt _
  · exact (observe_eq_iff _ _).2 rfl

/-- A restored accumulator with more than two frames, fed a hundred bytes, nothing, and a frame. -/
theorem feedAll_in_order_of_three :
    let a : Accumulator := .restore .empty (Bytes.zeros 2000)
    let payloads := [Bytes.zeros 100, [], Bytes.zeros 960]
    payloads ≠ [] ∧
      WireFrame.join (a.feedAll payloads).1.flatten ++ (a.feedAll payloads).2.waiting =
        Bytes.zeros 2000 ++ payloads.flatten ∧
      (a.feedAll payloads).2.size < frameBytes :=
  have hne : [Bytes.zeros 100, [], Bytes.zeros 960] ≠ [] := List.cons_ne_nil _ _
  have h := feedAll_in_order (.restore .empty (Bytes.zeros 2000)) hne
  ⟨hne, h.2.1, h.2.2.1 3 (by decide)⟩

end Accumulator

end NoiseFilter
