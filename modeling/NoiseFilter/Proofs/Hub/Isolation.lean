import NoiseFilter.Proofs.Hub.Governance

/-!
# Streams do not interfere

Where the pool gives every stream the same engine, or none to any, nothing passes from one stream to
another: `Hub.run_isolated` compares a run of a hub with one in which a stream is alone, and finds the
same reads and drains of it, and the same stream at every moment. What is left of the other steps is
what was published before the stream was bound.

The rest of the traffic is not even filtered. Control packets, packets of local origin and packets of
streams without a filter are handed on (`Hub.HandsOn`), and no engine is asked for or put to use.
-/

namespace NoiseFilter

variable {pool engine : Type} {name : String}

/-- How a read ends that hands on what the transport answered. -/
def Outcome.ofArrival : Arrival → Outcome
  | .ok d => .delivered d
  | .error why => .failed why

/-- Whether a step publishes settings. -/
def Step.publishes (st : Step) : Bool := st.published?.isSome

namespace Stream

/-- A stream without a filter hands on what the transport answered, and the buffer as the transport left
it. -/
theorem forward_eq (arrival : Arrival) (buffer : Buffer) :
    forward arrival buffer = ⟨.ofArrival arrival, buffer, [], []⟩ := by
  cases arrival <;> rfl

end Stream

namespace Hub

/-! ### What is handed on -/

/-- **Steps that only hand something on**, and what they answer: for a read what the transport answered,
with the buffer as it left it, and for a write what the sink did. -/
inductive HandsOn (h : Hub pool engine) : Step → Answer → Prop
  /-- a control packet -/
  | control (arrival : Arrival) (buffer : Buffer) :
      HandsOn h (.control arrival buffer) (.read ⟨.ofArrival arrival, buffer, [], []⟩)
  /-- a packet of local origin -/
  | write (packet : Outgoing) (result : Except TransportError Nat) :
      HandsOn h (.write packet result) (.wrote packet result)
  /-- a packet of a stream without a filter -/
  | read {other : String} (hplain : h.stream? other = some .plain) (arrival : Arrival)
      (buffer : Buffer) :
      HandsOn h (.read other arrival buffer) (.read ⟨.ofArrival arrival, buffer, [], []⟩)

/-- **What is handed on goes by the hub untouched**: it is all that is shown, and no stream changes, nor
the settings, nor the pool. -/
theorem HandsOn.step {k : Backend pool engine} {h : Hub pool engine} {st : Step} {answer : Answer}
    (hst : h.HandsOn st answer) :
    (h.step k st).1 = ⟨answer, []⟩ ∧ (h.step k st).2.pool = h.pool ∧
      (h.step k st).2.settings = h.settings ∧
      ∀ name, (h.step k st).2.stream? name = h.stream? name := by
  rcases hst with ⟨arrival, buffer⟩ | ⟨packet, result⟩ | @⟨other, hplain, arrival, buffer⟩
  · rw [← Stream.forward_eq]
    exact ⟨rfl, rfl, rfl, fun _ => rfl⟩
  · exact ⟨rfl, rfl, rfl, fun _ => rfl⟩
  · have hread := step_read_of_some k h hplain arrival buffer
    rw [Stream.read, Stream.forward_eq] at hread
    rw [hread]
    refine ⟨rfl, rfl, rfl, fun name => ?_⟩
    by_cases hname : name = other
    · rw [hname, stream?_insert, hplain]
    · exact stream?_insert_of_ne hname { h with pool := h.pool } .plain

/-- **A stream without a filter never gets one**, whatever the steps, until another stream is put in its
place. -/
theorem plain_run (k : Backend pool engine) {steps : List Step}
    (hopens : ∀ st ∈ steps, st.opens name = false) {h : Hub pool engine}
    (hplain : ∀ s ∈ h.stream? name, s = .plain) :
    ∀ s ∈ (h.run k steps).2.stream? name, s = .plain := by
  have hread : ∀ p (s : Stream engine) arrival buffer, s = .plain →
      True ∧ (s.read k p arrival buffer).2.1 = .plain := by
    rintro p _ arrival buffer rfl
    exact ⟨trivial, rfl⟩
  have hdrain : ∀ s : Stream engine, s = .plain → True ∧ s.drain.2 = .plain := by
    rintro _ rfl
    exact ⟨trivial, rfl⟩
  exact (run_keeps (Q := fun _ => True) hread hdrain trivial steps hopens h hplain).2

/-! ### The run of one stream -/

/-- What is published is settled by the steps that publish. -/
theorem published_filter (settings : Settings) (steps : List Step) :
    published settings (steps.filter Step.publishes) = published settings steps := by
  have hsame : (steps.filter Step.publishes).filterMap Step.published? =
      steps.filterMap Step.published? := by
    induction steps with
    | nil => rfl
    | cons st steps ih =>
      cases hst : st.published? with
      | none =>
        rw [List.filter_cons_of_neg (by simp [Step.publishes, hst]), List.filterMap_cons_none hst, ih]
      | some settings =>
        rw [List.filter_cons_of_pos (by simp [Step.publishes, hst]), List.filterMap_cons_some hst,
          List.filterMap_cons_some hst, ih]
  rw [published, published, hsame]

/-- What is put under a name depends on the settings, and on nothing else in the hub. -/
theorem stream?_step_of_opens {k : Backend pool engine} {h h' : Hub pool engine}
    (hsettings : h'.settings = h.settings) {st : Step} (hopens : st.opens name = true) :
    (h'.step k st).2.stream? name = (h.step k st).2.stream? name := by
  cases st with
  | bind binder other info =>
    obtain rfl : other = name := by simpa [Step.opens] using hopens
    rw [step, step, stream?_insert, stream?_insert, hsettings]
  | attach other ssrc settings =>
    obtain rfl : other = name := by simpa [Step.opens] using hopens
    rw [step, step, stream?_insert, stream?_insert]
  | _ => cases hopens

/-- What is granted to a stream is what the pool answers at some time. -/
theorem exists_create_of_granted (k : Backend pool engine) (steps : List Step) :
    ∀ h : Hub pool engine, ∀ outcome ∈ h.granted k name steps, ∃ q, (k.create q).1 = outcome := by
  induction steps with
  | nil => rintro h outcome ⟨⟩
  | cons st steps ih =>
    intro h outcome houtcome
    rw [granted] at houtcome
    split at houtcome
    · cases houtcome
      exact ⟨h.pool, rfl⟩
    · exact ih _ outcome houtcome

/-- **Streams do not interfere.** If the pool answers every stream the same, then from the step that puts
a stream under a name, and until another one is put there,

* all reads and drains of the stream show what they show where it is alone: in a run of the settings
  published before, of that step, and of the stream's own;
* and the stream is the same there, with its status, what waits in it and its counters;
* a stream that was put there without a filter has none for good;
* what is handed on in any hub is all that is shown, neither altered nor recorded, and leaves all streams
  and the pool as they were: no engine is created, and none is put to use.
-/
theorem run_isolated {k : Backend pool engine}
    (halike : ∀ q q', (k.create q).1 = (k.create q').1) (settings : Settings) (p : pool) (id : String)
    (front : List Step) {opening : Step} {name : String} (hopening : opening.opens name = true)
    {back : List Step} (hopens : ∀ st ∈ back, st.opens name = false) :
    let own := back.filter (Step.isAbout name)
    let whole := (((new settings p id).run k front).2.step k opening).2
    let alone := (((new settings p id).run k (front.filter Step.publishes)).2.step k opening).2
    shownOf name own (alone.run k own).1 = shownOf name back (whole.run k back).1 ∧
      (alone.run k own).2.stream? name = (whole.run k back).2.stream? name ∧
      (whole.stream? name = some .plain → ∀ s ∈ (whole.run k back).2.stream? name, s = .plain) ∧
      ∀ (h : Hub pool engine) {st answer}, h.HandsOn st answer →
        (h.step k st).1 = ⟨answer, []⟩ ∧ (h.step k st).2.pool = h.pool ∧
          ∀ other, (h.step k st).2.stream? other = h.stream? other := by
  intro own whole alone
  have hsettings : ((new settings p id).run k (front.filter Step.publishes)).2.settings =
      ((new settings p id).run k front).2.settings := by
    rw [settings_run, settings_run]
    exact published_filter settings front
  have hstream : alone.stream? name = whole.stream? name := stream?_step_of_opens hsettings hopening
  -- whatever the pool answers is what it answers always
  have hgranted : ∀ outcome ∈ whole.granted k name back, ∀ q, (k.create q).1 = outcome := by
    intro outcome houtcome q
    obtain ⟨q', rfl⟩ := exists_create_of_granted k back whole outcome houtcome
    exact halike q q'
  obtain ⟨hshown, hend⟩ := run_projects rfl back hopens whole alone hstream fun _ => hgranted
  refine ⟨hshown, hend, fun hplain => plain_run k hopens ?_, fun h st answer hst => ?_⟩
  · rw [hplain]
    rintro _ ⟨⟩
    rfl
  · obtain ⟨hanswer, hpool, -, hstreams⟩ := hst.step (k := k)
    exact ⟨hanswer, hpool, hstreams⟩

/-- Two streams take turns, with a control packet and a packet of local origin in between; other settings
are published, the other stream is unbound, and the binder is done with the first one, which is used further. -/
def mingled : List Step :=
  [.read "other" (.ok frameAndOne.delivery) frameAndOne.buffer,
    .read "own" (.ok frameAndOne.delivery) frameAndOne.buffer, .control (.error .closed) (.blank 4),
    .update Settings.default, .unbind 0 "other" (audio 2), .write ⟨1, 7, [0], []⟩ (.ok 1),
    .dismiss 1 (audio 1), .read "own" (.ok frameAndOne.delivery) frameAndOne.buffer, .drain "own"]

/-- Of two streams that take turns, each has engines that turn every frame round, and the one shows what
it shows alone. -/
theorem run_isolated_of_mingled :
    let k := Script.backend ⟨[], [.reverse]⟩
    let front := [.bind 0 "own" (audio 3), .binder "late", .update Filter.carrying,
      .bind 0 "other" (audio 2)]
    let whole := (((new Settings.default 0 "main").run k front).2.step k
      (.bind 1 "own" (audio 1))).2
    let alone := (((new Settings.default 0 "main").run k [.update Filter.carrying]).2.step k
      (.bind 1 "own" (audio 1))).2
    (∀ q q', (k.create q).1 = (k.create q').1) ∧ (∀ st ∈ mingled, st.opens "own" = false) ∧
      shownOf "own" (mingled.filter (Step.isAbout "own"))
          (alone.run k (mingled.filter (Step.isAbout "own"))).1 =
        shownOf "own" mingled (whole.run k mingled).1 := by
  intro k front whole alone
  have halike : ∀ q q', (k.create q).1 = (k.create q').1 := by
    intro q q'
    simp only [k, Script.backend, Script.creation, List.getElem?_nil, Option.join_none]
  have hopens : ∀ st ∈ mingled, st.opens "own" = false := by decide
  have hopening : (Step.bind 1 "own" (audio 1)).opens "own" = true := by decide
  exact ⟨halike, hopens, (run_isolated halike Settings.default 0 "main" front hopening hopens).1⟩

end Hub

end NoiseFilter
