import NoiseFilter.Proofs.Stream.Lifecycle

/-!
# One stream among many

A hub runs the steps of all its streams one after the other. `Hub.run_projects` says what a single
stream has of that: the reads and drains of its own show the same as if all other steps had been left
out. Two things go by way of the hub from one stream to the others, and only one is in the way of this:

* the settings are looked at when a stream is bound, and never again;
* the pool is asked for an engine by each stream with a filter, once, at the first delivery. Which
  engine that is, and whether there is one, may depend on how often the pool was asked before.

So the answer that the stream gets from the pool, `Hub.granted`, is the one thing that the run on its own
has to be told. What a step can do to a stream is said once, by `Hub.Move`, and everything about runs is
read off that.
-/

namespace NoiseFilter

variable {pool pool' engine : Type} {name : String}

/-- **The same engines, out of a pool that always answers the same.** -/
def Backend.always (k : Backend pool engine) (outcome : Except Failure engine) :
    Backend Unit engine where
  create _ := (outcome, ())
  process := k.process

namespace Step

/-- The stream that a step is about, if it is about one. -/
def subject? : Step → Option String
  | .bind _ name _ | .attach name _ _ | .read name _ _ | .drain name | .look name | .forget name
  | .unbind _ name _ => some name
  | .update _ | .settings | .binder _ | .control _ _ | .write _ _ | .dismiss _ _ => none

/-- Whether a step is about the stream of a name. -/
def isAbout (name : String) (st : Step) : Bool := st.subject? == some name

/-- Whether a step puts a stream under a name. -/
def opens (name : String) : Step → Bool
  | .bind _ other _ | .attach other _ _ => other == name
  | _ => false

/-- Whether a step takes the stream of a name away. -/
def closes (name : String) : Step → Bool
  | .forget other | .unbind _ other _ => other == name
  | _ => false

/-- Whether a step reads or drains the stream of a name. -/
def uses (name : String) : Step → Bool
  | .read other _ _ | .drain other => other == name
  | _ => false

/-- Whether something arrives for the stream of a name. -/
def delivers (name : String) : Step → Bool
  | .read other (.ok _) _ => other == name
  | _ => false

/-- **The steps of a stream's own**, once it is there. -/
theorem own_cases {st : Step} (hown : st.isAbout name = true) (hopens : st.opens name = false) :
    (∃ arrival buffer, st = .read name arrival buffer) ∨ st = .drain name ∨ st = .look name ∨
      st.closes name = true := by
  have hsubject : st.subject? = some name := by simpa only [isAbout, beq_iff_eq] using hown
  cases st <;> cases hsubject
  case bind | attach => simp [opens] at hopens
  case read arrival buffer => exact .inl ⟨arrival, buffer, rfl⟩
  case drain => exact .inr (.inl rfl)
  case look => exact .inr (.inr (.inl rfl))
  case forget | unbind => exact .inr (.inr (.inr (beq_self_eq_true name)))

/-- What is not about a stream does not use it. -/
theorem uses_of_other {st : Step} (hother : st.isAbout name = false) : st.uses name = false := by
  cases st with
  | read other arrival buffer => exact hother
  | drain other => exact hother
  | _ => rfl

/-- What is not about a stream delivers nothing to it. -/
theorem delivers_of_other {st : Step} (hother : st.isAbout name = false) :
    st.delivers name = false := by
  cases st with
  | read other arrival buffer =>
    cases arrival with
    | error why => rfl
    | ok d => exact hother
  | _ => rfl

/-- What takes a stream away does not use it. -/
theorem not_uses_of_closes {st : Step} (hcloses : st.closes name = true) : ¬ st.uses name = true := by
  cases st with
  | read other arrival buffer => cases hcloses
  | drain other => cases hcloses
  | _ => exact Bool.false_ne_true

end Step

/-! ### A read of a stream -/

namespace Stream

/-- The stream has a filter that has not asked for its engine yet. -/
def Awaits (s : Stream engine) : Prop := ∃ f, s = .filtered f ∧ f.stage = .uninitialized

/-- **A read depends on the pool by the engine that it takes**, and on no pool if it takes none. -/
theorem read_congr {k : Backend pool engine} {k' : Backend pool' engine}
    (hprocess : k'.process = k.process) {p : pool} {p' : pool'} {s : Stream engine}
    {arrival : Arrival} (buffer : Buffer)
    (hcreate : ∀ d, arrival = .ok d → s.Awaits → (k'.create p').1 = (k.create p).1) :
    (s.read k' p' arrival buffer).1 = (s.read k p arrival buffer).1 ∧
      (s.read k' p' arrival buffer).2.1 = (s.read k p arrival buffer).2.1 := by
  cases s with
  | plain => exact ⟨rfl, rfl⟩
  | filtered f =>
    cases arrival with
    | error why => exact ⟨rfl, rfl⟩
    | ok d =>
      obtain ⟨hreading, hfilter⟩ := Filter.read_congr hprocess
        (fun hstage => hcreate d rfl ⟨f, rfl, hstage⟩) d buffer
      exact ⟨hreading, congrArg filtered hfilter⟩

/-- After a delivery nothing is awaited any more. -/
theorem not_awaits_read (k : Backend pool engine) (p : pool) (s : Stream engine) (d : Delivery)
    (buffer : Buffer) : ¬ (s.read k p (.ok d) buffer).2.1.Awaits := by
  rintro ⟨g, hg, hstage⟩
  cases s with
  | plain => cases hg
  | filtered f =>
    have hstatus := (f.exit_read k p (.ok d) buffer).status_eq
    obtain rfl : (f.read k p (.ok d) buffer).2.1 = g := filtered.inj hg
    rw [hstage] at hstatus
    exact f.started_settled k p (Stage.status_eq_uninitialized.1 hstatus.symm)

/-- Taking out what waits leaves the stream awaiting what it awaited. -/
theorem awaits_of_drain {s : Stream engine} (h : s.drain.2.Awaits) : s.Awaits := by
  obtain ⟨g, hg, hstage⟩ := h
  cases s with
  | plain => cases hg
  | filtered f =>
    cases hg
    exact ⟨f, rfl, hstage⟩

end Stream

namespace Hub

/-! ### Names -/

theorem lookup_filter_ne {α : Type} {other : String} (hne : name ≠ other) (l : List (String × α)) :
    (l.filter fun entry => entry.1 != other).lookup name = l.lookup name := by
  induction l with
  | nil => rfl
  | cons entry l ih =>
    by_cases hentry : entry.1 = other
    · have hmiss : (name == entry.1) = false := by simpa [hentry] using hne
      rw [List.filter_cons_of_neg (by simpa using hentry), ih, List.lookup_cons, hmiss]
    · rw [List.filter_cons_of_pos (by simpa using hentry), List.lookup_cons, List.lookup_cons, ih]

/-- A stream under one name leaves those under the others where they are. -/
theorem stream?_insert_of_ne {other : String} (hne : name ≠ other) (h : Hub pool engine)
    (s : Stream engine) : (h.insert other s).stream? name = h.stream? name := by
  have hmiss : (name == other) = false := by simpa using hne
  rw [stream?, insert, List.lookup_cons, hmiss]
  exact lookup_filter_ne hne h.streams

theorem stream?_erase_of_ne {other : String} (hne : name ≠ other) (h : Hub pool engine) :
    (h.erase other).stream? name = h.stream? name := lookup_filter_ne hne h.streams

theorem stream?_erase (h : Hub pool engine) (name : String) : (h.erase name).stream? name = none := by
  rw [stream?, erase, List.lookup_eq_none_iff]
  intro entry hentry
  have hne := (List.mem_filter.1 hentry).2
  rw [bne_iff_ne] at hne
  simpa using hne.symm

/-! ### One step -/

section Step

variable (k : Backend pool engine) (h : Hub pool engine)

theorem step_read_of_some {s : Stream engine} (hs : h.stream? name = some s) (arrival : Arrival)
    (buffer : Buffer) : h.step k (.read name arrival buffer) =
      (⟨.read (s.read k h.pool arrival buffer).1, (s.read k h.pool arrival buffer).1.notices⟩,
        { h with pool := (s.read k h.pool arrival buffer).2.2 }.insert name
          (s.read k h.pool arrival buffer).2.1) := by
  simp only [step, hs]

theorem step_drain_of_some {s : Stream engine} (hs : h.stream? name = some s) :
    h.step k (.drain name) = (⟨.drained s.drain.1, []⟩, h.insert name s.drain.2) := by
  simp only [step, hs]

theorem step_read_of_none (hs : h.stream? name = none) (arrival : Arrival) (buffer : Buffer) :
    h.step k (.read name arrival buffer) = (⟨.nothing, []⟩, h) := by
  simp only [step, hs]

theorem step_drain_of_none (hs : h.stream? name = none) :
    h.step k (.drain name) = (⟨.nothing, []⟩, h) := by
  simp only [step, hs]

/-- **A step that is not about a stream leaves it alone.** -/
theorem stream?_step_of_other {st : Step} (hother : st.isAbout name = false) :
    (h.step k st).2.stream? name = h.stream? name := by
  have hne : ∀ other, st.subject? = some other → name ≠ other := by
    rintro other hsubject rfl
    simp [Step.isAbout, hsubject] at hother
  cases st with
  | update settings => rfl
  | settings => rfl
  | binder id => rfl
  | control arrival buffer => rfl
  | write packet result => rfl
  | look other => rfl
  | dismiss binder info => rfl
  | bind binder other info =>
    exact stream?_insert_of_ne (hne other rfl) { h with shared := h.shared.snapshot } _
  | attach other ssrc settings => exact stream?_insert_of_ne (hne other rfl) h _
  | forget other => exact stream?_erase_of_ne (hne other rfl) h
  | unbind binder other info => exact stream?_erase_of_ne (hne other rfl) h
  | read other arrival buffer =>
    cases hs : h.stream? other with
    | none => rw [step_read_of_none k h hs]
    | some s =>
      rw [step_read_of_some k h hs]
      exact stream?_insert_of_ne (hne other rfl) { h with pool := _ } _
  | drain other =>
    cases hs : h.stream? other with
    | none => rw [step_drain_of_none k h hs]
    | some s =>
      rw [step_drain_of_some k h hs]
      exact stream?_insert_of_ne (hne other rfl) h _

/-- **A step that takes a stream away** leaves nothing under its name. -/
theorem stream?_step_of_closes {st : Step} (hcloses : st.closes name = true) :
    (h.step k st).2.stream? name = none := by
  cases st with
  | forget other =>
    obtain rfl : other = name := by simpa [Step.closes] using hcloses
    exact stream?_erase h other
  | unbind binder other info =>
    obtain rfl : other = name := by simpa [Step.closes] using hcloses
    exact stream?_erase h other
  | _ => cases hcloses

/-- **The moves of the stream of a name**: what a step shows of it, and the stream before and after. There
is no other move for a step that puts no other stream in its place (`Hub.move_step`). -/
inductive Move (k : Backend pool engine) (p : pool) (name : String) :
    Option (Stream engine) → Step → Shown → Option (Stream engine) → Prop
  /-- The step is about something else. -/
  | aside (s : Option (Stream engine)) (st : Step) (one : Shown) (hother : st.isAbout name = false) :
      Move k p name s st one s
  /-- There is no stream of that name. -/
  | absent (st : Step) (one : Shown) (hown : st.isAbout name = true)
      (hnothing : st.uses name = true → one = ⟨.nothing, []⟩) : Move k p name none st one none
  | read (s : Stream engine) (arrival : Arrival) (buffer : Buffer) :
      Move k p name (some s) (.read name arrival buffer)
        ⟨.read (s.read k p arrival buffer).1, (s.read k p arrival buffer).1.notices⟩
        (some (s.read k p arrival buffer).2.1)
  | drain (s : Stream engine) :
      Move k p name (some s) (.drain name) ⟨.drained s.drain.1, []⟩ (some s.drain.2)
  | look (s : Stream engine) (one : Shown) : Move k p name (some s) (.look name) one (some s)
  /-- The stream is taken away. -/
  | close (s : Stream engine) (st : Step) (one : Shown) (hcloses : st.closes name = true) :
      Move k p name (some s) st one none

/-- **Every step is a move of the stream**, if it puts no other one in its place. -/
theorem move_step {st : Step} (hopens : st.opens name = false) :
    Move k h.pool name (h.stream? name) st (h.step k st).1 ((h.step k st).2.stream? name) := by
  cases hown : st.isAbout name with
  | false =>
    rw [stream?_step_of_other k h hown]
    exact .aside _ st _ hown
  | true =>
    rcases Step.own_cases hown hopens with ⟨arrival, buffer, rfl⟩ | rfl | rfl | hcloses
    · cases hs : h.stream? name with
      | none =>
        rw [step_read_of_none k h hs, hs]
        exact .absent _ _ hown fun _ => rfl
      | some s =>
        rw [step_read_of_some k h hs, stream?_insert]
        exact .read s arrival buffer
    · cases hs : h.stream? name with
      | none =>
        rw [step_drain_of_none k h hs, hs]
        exact .absent _ _ hown fun _ => rfl
      | some s =>
        rw [step_drain_of_some k h hs, stream?_insert]
        exact .drain s
    · change Move k h.pool name _ _ _ (h.stream? name)
      cases hs : h.stream? name with
      | none => exact .absent _ _ hown fun _ => rfl
      | some s => exact .look s _
    · rw [stream?_step_of_closes k h hcloses]
      cases hs : h.stream? name with
      | none => exact .absent _ _ hown fun huses => absurd huses (st.not_uses_of_closes hcloses)
      | some s => exact .close s st _ hcloses

/-- The stream of a name has a filter that has not asked for its engine yet. -/
def Awaits (h : Hub pool engine) (name : String) : Prop := ∃ s ∈ h.stream? name, s.Awaits

variable {k} in
/-- **An engine is awaited until something arrives.** -/
theorem Move.awaits {p : pool} {before after : Option (Stream engine)} {st : Step} {one : Shown}
    (h : Move k p name before st one after) (hawaits : ∃ s ∈ after, s.Awaits) :
    (∃ s ∈ before, s.Awaits) ∧ st.delivers name = false := by
  obtain ⟨s', hs', hstage⟩ := hawaits
  cases h with
  | aside s st one hother => exact ⟨⟨s', hs', hstage⟩, st.delivers_of_other hother⟩
  | absent => cases hs'
  | read s arrival buffer =>
    cases hs'
    rcases arrival with why | d
    · refine ⟨⟨s, rfl, ?_⟩, rfl⟩
      cases s <;> exact hstage
    · exact absurd hstage (s.not_awaits_read k p d buffer)
  | drain s =>
    cases hs'
    exact ⟨⟨s, rfl, Stream.awaits_of_drain hstage⟩, rfl⟩
  | look s one => exact ⟨⟨s', hs', hstage⟩, rfl⟩
  | close s st one hcloses => cases hs'

variable {k} in
/-- **A step of its own moves a stream alike in all hubs** that hold it, if the pools give it the same
engine where it asks for one. -/
theorem Move.congr {k' : Backend pool' engine} (hprocess : k'.process = k.process) {p : pool}
    {p' : pool'} {before after after' : Option (Stream engine)} {st : Step} {one one' : Shown}
    (h : Move k p name before st one after) (h' : Move k' p' name before st one' after')
    (hown : st.isAbout name = true)
    (hcreate : st.delivers name = true → (∃ s ∈ before, s.Awaits) →
      (k'.create p').1 = (k.create p).1) :
    (st.uses name = true → one' = one) ∧ after' = after := by
  cases h with
  | aside _ _ _ hother => cases hown.symm.trans hother
  | absent st one _ hnothing =>
    cases h' with
    | aside _ _ _ hother => cases hown.symm.trans hother
    | absent _ _ _ hnothing' => exact ⟨fun huses => (hnothing' huses).trans (hnothing huses).symm, rfl⟩
  | read s arrival buffer =>
    cases h' with
    | aside _ _ _ hother => cases hown.symm.trans hother
    | close _ _ _ hcloses => cases hcloses
    | read =>
      have hcreate : ∀ d, arrival = .ok d → s.Awaits → (k'.create p').1 = (k.create p).1 := by
        rintro d rfl hawaits
        exact hcreate (beq_self_eq_true name) ⟨s, rfl, hawaits⟩
      obtain ⟨hreading, hread⟩ := s.read_congr hprocess buffer hcreate
      rw [hreading, hread]
      exact ⟨fun _ => rfl, rfl⟩
  | drain s =>
    cases h' with
    | aside _ _ _ hother => cases hown.symm.trans hother
    | close _ _ _ hcloses => cases hcloses
    | drain => exact ⟨fun _ => rfl, rfl⟩
  | look s one =>
    cases h' with
    | aside _ _ _ hother => cases hown.symm.trans hother
    | close _ _ _ hcloses => cases hcloses
    | look => exact ⟨nofun, rfl⟩
  | close s st one hcloses =>
    refine ⟨fun huses => absurd huses (st.not_uses_of_closes hcloses), ?_⟩
    cases h' with
    | aside _ _ _ hother => cases hown.symm.trans hother
    | close => rfl
    | read | drain | look => cases hcloses

end Step

/-! ### Runs -/

/-- **What the reads and drains of a stream show**, out of all that a run shows. -/
def shownOf (name : String) (steps : List Step) (shown : List Shown) : List Shown :=
  ((steps.zip shown).filter fun entry => entry.1.uses name).map Prod.snd

/-- **What the pool answers for a stream**: the outcome of the creation at the first delivery to its
name, if there is one among the steps. -/
def granted (k : Backend pool engine) (name : String) :
    Hub pool engine → List Step → Option (Except Failure engine)
  | _, [] => none
  | h, st :: steps =>
    if st.delivers name then some (k.create h.pool).1 else granted k name (h.step k st).2 steps

theorem run_cons (k : Backend pool engine) (h : Hub pool engine) (st : Step) (steps : List Step) :
    h.run k (st :: steps) =
      ((h.step k st).1 :: ((h.step k st).2.run k steps).1, ((h.step k st).2.run k steps).2) := rfl

theorem shownOf_cons_of_uses {st : Step} (huses : st.uses name = true) (steps : List Step)
    (one : Shown) (shown : List Shown) :
    shownOf name (st :: steps) (one :: shown) = one :: shownOf name steps shown := by
  simp only [shownOf, List.zip_cons_cons, List.filter_cons, huses, if_true, List.map_cons]

theorem shownOf_cons_of_not_uses {st : Step} (huses : st.uses name = false) (steps : List Step)
    (one : Shown) (shown : List Shown) :
    shownOf name (st :: steps) (one :: shown) = shownOf name steps shown := by
  simp only [shownOf, List.zip_cons_cons, List.filter_cons, huses, Bool.false_eq_true, if_false]

/-- **A stream has no more of a run than its own steps**: with the same engine given to it where it asks
for one, every hub that holds it shows the same in a run of these alone, and is left with the same
stream. -/
theorem run_projects {k : Backend pool engine} {k' : Backend pool' engine}
    (hprocess : k'.process = k.process) (steps : List Step) :
    (∀ st ∈ steps, st.opens name = false) →
      ∀ (h : Hub pool engine) (h' : Hub pool' engine), h'.stream? name = h.stream? name →
      (h.Awaits name → ∀ outcome ∈ h.granted k name steps, ∀ q, (k'.create q).1 = outcome) →
        shownOf name (steps.filter (Step.isAbout name))
            (h'.run k' (steps.filter (Step.isAbout name))).1 =
          shownOf name steps (h.run k steps).1 ∧
        (h'.run k' (steps.filter (Step.isAbout name))).2.stream? name =
          (h.run k steps).2.stream? name := by
  induction steps with
  | nil => exact fun _ h h' hstream _ => ⟨rfl, hstream⟩
  | cons st steps ih =>
    intro hopens h h' hstream hgranted
    obtain ⟨hopen, hrest⟩ := List.forall_mem_cons.1 hopens
    -- what awaits its engine after the step awaited it before, and has been granted nothing
    have hlater : (h.step k st).2.Awaits name →
        ∀ outcome ∈ (h.step k st).2.granted k name steps, ∀ q, (k'.create q).1 = outcome := by
      intro hawaits
      obtain ⟨hbefore, hdelivers⟩ := (move_step k h hopen).awaits hawaits
      have hgranted := hgranted hbefore
      rwa [granted, hdelivers, if_neg Bool.false_ne_true] at hgranted
    cases hown : st.isAbout name with
    | false =>
      rw [List.filter_cons_of_neg (by rw [hown]; exact Bool.false_ne_true), run_cons k h,
        shownOf_cons_of_not_uses (st.uses_of_other hown)]
      exact ih hrest (h.step k st).2 h' (hstream.trans (stream?_step_of_other k h hown).symm) hlater
    | true =>
      have hmove' := move_step k' h' hopen
      rw [hstream] at hmove'
      obtain ⟨hshown, hafter⟩ := (move_step k h hopen).congr hprocess hmove' hown
        fun hdelivers hawaits =>
          hgranted hawaits _ (by rw [granted, hdelivers, if_pos rfl]; exact rfl) h'.pool
      obtain ⟨hih, hend⟩ := ih hrest (h.step k st).2 (h'.step k' st).2 hafter hlater
      rw [List.filter_cons_of_pos hown, run_cons k h, run_cons k' h']
      refine ⟨?_, hend⟩
      cases huses : st.uses name with
      | false => rwa [shownOf_cons_of_not_uses huses, shownOf_cons_of_not_uses huses]
      | true => rw [shownOf_cons_of_uses huses, shownOf_cons_of_uses huses, hshown huses, hih]

/-- **Two runs with the same steps of a stream show the same of it**, whatever else is in them, if the
pool answers the same where the stream still awaits its engine. -/
theorem run_congr {k : Backend pool engine} {h h' : Hub pool engine} {steps steps' : List Step}
    (hstream : h'.stream? name = h.stream? name) (hopens : ∀ st ∈ steps, st.opens name = false)
    (hopens' : ∀ st ∈ steps', st.opens name = false)
    (hown : steps'.filter (Step.isAbout name) = steps.filter (Step.isAbout name))
    (hgranted : h.Awaits name → h'.granted k name steps' = h.granted k name steps) :
    shownOf name steps' (h'.run k steps').1 = shownOf name steps (h.run k steps).1 ∧
      (h'.run k steps').2.stream? name = (h.run k steps).2.stream? name := by
  -- both are the run of the steps in common, out of a pool that knows the answer
  let answer := k.always ((h.granted k name steps).getD (.error (.root "")))
  have hanswer : ∀ outcome ∈ h.granted k name steps, ∀ q, (answer.create q).1 = outcome := by
    intro outcome houtcome q
    rw [Option.mem_def] at houtcome
    simp only [answer, Backend.always, houtcome, Option.getD_some]
  have hprocess : answer.process = k.process := rfl
  let alone : Hub Unit engine := ⟨h.shared, (), h.binders, h.streams⟩
  obtain ⟨hshown, hend⟩ := run_projects hprocess steps hopens h alone rfl fun _ => hanswer
  obtain ⟨hshown', hend'⟩ := run_projects hprocess steps' hopens' h' alone hstream.symm
    fun hawaits => by
      rw [Awaits, hstream] at hawaits
      rw [hgranted hawaits]
      exact hanswer
  rw [hown] at hshown' hend'
  exact ⟨hshown'.symm.trans hshown, hend'.symm.trans hend⟩

end Hub

end NoiseFilter
