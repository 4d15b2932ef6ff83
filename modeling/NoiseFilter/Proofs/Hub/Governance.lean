import NoiseFilter.Proofs.Hub.Projection
import NoiseFilter.Proofs.Stream.Backlog

/-!
# Streams and the settings of their binding

Settings are shared by all binders of a hub, and a stream keeps those of the moment when it was bound. What
binders share is `Hub.shared_run`: all see what was published last, and no snapshot changes. And
`Hub.run_governed` follows one stream from its binding on: binders handed out before the last change bind by it
like all others, and what is published later never gets to the stream.

It can get near it, though. Later settings decide which of the streams bound after this one have a
filter, so which of them ask the pool for an engine. A stream asks at its first delivery, and if others
have asked meanwhile, the pool may answer it differently: `Hub.outcome_moved_by_later_settings` has two
streams and one engine. So the theorem lets other steps change as they like, and holds on to the pool's answer for as
long as the stream awaits it.
-/

namespace NoiseFilter

open Rtp

variable {pool engine : Type} {name : String}

/-! ### What the engine is asked -/

/-- Frames put to an engine are judged by the threshold given. -/
theorem Backend.threshold_of_mem_analyse (k : Backend pool engine) (threshold : Binary.Single)
    (frames : List WireFrame) :
    ∀ e, ∀ a ∈ (k.analyse threshold e frames).1, a.threshold = threshold := by
  induction frames with
  | nil => exact fun e a ha => absurd ha List.not_mem_nil
  | cons frame frames ih =>
    intro e
    rw [k.analyse_cons]
    exact List.forall_mem_cons.2 ⟨rfl, ih _⟩

namespace Filter

/-- **A read judges by the filter's own threshold.** -/
theorem Exit.threshold_eq {k : Backend pool engine} {p : pool} {f g : Filter engine}
    {buffer : Buffer} {arrival : Arrival} {r : Reading} (h : f.Exit k p buffer arrival r g) :
    ∀ a ∈ r.analyses, a.threshold = f.settings.threshold := by
  have hsuppress : ∀ e payload, ∀ a ∈ ((f.started k p).suppress k e payload).analyses,
      a.threshold = f.settings.threshold := by
    intro e payload
    rw [analyses_suppress, ← started_settings k p f]
    exact k.threshold_of_mem_analyse _ _ e
  cases h with
  | failed | degraded | overrun | unread | short => exact fun a ha => absurd ha List.not_mem_nil
  | suppressed | gaveUp | released | dropped => exact hsuppress _ _

end Filter

/-! ### A stream and its settings -/

namespace Stream

/-- **A stream as settings want it**: behind a filter exactly if they route it there, the filter with the
stream's ssrc and these settings, and with nothing waiting that they would not let wait. -/
structure Governed (info : StreamInfo) (settings : Settings) (s : Stream engine) : Prop where
  filtered_iff : s.filter?.isSome ↔ info.route settings = .suppress
  bound : ∀ f ∈ s.filter?, f.ssrc = info.ssrc ∧ f.settings = settings
  coherent : ∀ f ∈ s.filter?, f.Coherent

variable {info : StreamInfo} {settings : Settings} {s : Stream engine}

/-- Binding makes of a stream what the settings want. -/
theorem governed_bind (info : StreamInfo) (settings : Settings) :
    (bind info settings : Stream engine).Governed info settings := by
  rw [bind]
  cases hroute : info.route settings with
  | suppress =>
    refine ⟨⟨fun _ => hroute, fun _ => rfl⟩, ?_, ?_⟩
    · rintro f ⟨⟩
      exact ⟨rfl, rfl⟩
    · rintro f ⟨⟩
      exact Filter.coherent_new info.ssrc settings
  | passThrough =>
    refine ⟨⟨fun hfilter => ?_, fun hsuppress => ?_⟩, ?_, ?_⟩
    · cases hfilter
    · cases hroute.symm.trans hsuppress
    · rintro f ⟨⟩
    · rintro f ⟨⟩

/-- What is done with the filter leaves the stream governed, if its ssrc, its settings and its coherence
stay. -/
theorem Governed.of_filter {f g : Filter engine} (h : (filtered f).Governed info settings)
    (hssrc : g.ssrc = f.ssrc) (hsettings : g.settings = f.settings) (hg : g.Coherent) :
    (filtered g).Governed info settings := by
  obtain ⟨hf, hf'⟩ := h.bound f rfl
  refine ⟨⟨fun _ => h.filtered_iff.1 rfl, fun _ => rfl⟩, ?_, ?_⟩
  · rintro _ ⟨⟩
    exact ⟨hssrc.trans hf, hsettings.trans hf'⟩
  · rintro _ ⟨⟩
    exact hg

/-- **A read leaves a stream as its settings want it**, and asks by their threshold. -/
theorem Governed.read (h : s.Governed info settings) (k : Backend pool engine) (p : pool)
    (arrival : Arrival) (buffer : Buffer) :
    (∀ a ∈ (s.read k p arrival buffer).1.analyses, a.threshold = settings.threshold) ∧
      (s.read k p arrival buffer).2.1.Governed info settings := by
  cases s with
  | plain =>
    refine ⟨?_, h⟩
    cases arrival <;> exact fun a ha => absurd ha List.not_mem_nil
  | filtered f =>
    have hexit := f.exit_read k p arrival buffer
    constructor
    · rw [← (h.bound f rfl).2]
      exact hexit.threshold_eq
    · exact h.of_filter hexit.ssrc_eq hexit.settings_eq (hexit.coherent (h.coherent f rfl))

/-- Draining leaves a stream as its settings want it. -/
theorem Governed.drain (h : s.Governed info settings) : s.drain.2.Governed info settings := by
  cases s with
  | plain => exact h
  | filtered f => exact h.of_filter rfl rfl (Filter.coherent_of_empty rfl)

end Stream

/-! ### What is published -/

/-- The settings that a step publishes, if it does. -/
def Step.published? : Step → Option Settings
  | .update current => some current
  | _ => none

/-- What a step does to the shared settings. -/
def Step.share : Step → Settings.Shared → Settings.Shared
  | .update current, s => s.publish current
  | .settings, s | .bind _ _ _, s => s.snapshot
  | .binder _, s => s.clone
  | _, s => s

/-- The binders that a step hands out. -/
def Step.handsOut : Step → List String
  | .binder id => [id]
  | _ => []

/-- **A step that arranges things** for streams to come: it publishes or looks at settings, hands out a
binder, or binds. -/
def Step.arranges : Step → Bool
  | .update _ | .settings | .binder _ | .bind _ _ _ => true
  | _ => false

/-- The frames that were put to the engine. -/
def Shown.analyses (one : Shown) : List Analysis :=
  match one.answer with
  | .read reading => reading.analyses
  | _ => []

/-- How a read ended, for a step that is one. -/
def Shown.outcome? (one : Shown) : Option Outcome :=
  match one.answer with
  | .read reading => some reading.outcome
  | _ => none

namespace Hub

/-- **The settings after some steps**: those published last, and the first ones if there were none. -/
def published (settings : Settings) (steps : List Step) : Settings :=
  (steps.filterMap Step.published?).getLastD settings

/-- What a step does to the shared settings, and to the binders. -/
theorem shared_step (k : Backend pool engine) (h : Hub pool engine) (st : Step) :
    (h.step k st).2.shared = st.share h.shared ∧ (h.step k st).2.binders = h.binders ++ st.handsOut := by
  have hsame : h.shared = h.shared ∧ h.binders = h.binders ++ [] := ⟨rfl, (List.append_nil _).symm⟩
  cases st with
  | read other arrival buffer =>
    cases hs : h.stream? other with
    | none => rw [step_read_of_none k h hs]; exact hsame
    | some s => rw [step_read_of_some k h hs]; exact hsame
  | drain other =>
    cases hs : h.stream? other with
    | none => rw [step_drain_of_none k h hs]; exact hsame
    | some s => rw [step_drain_of_some k h hs]; exact hsame
  | binder id => exact ⟨rfl, rfl⟩
  | _ => exact ⟨rfl, hsame.2⟩

theorem settings_step (k : Backend pool engine) (h : Hub pool engine) (st : Step) :
    (h.step k st).2.settings = st.published?.getD h.settings := by
  rw [settings, (shared_step k h st).1]
  cases st <;> rfl

/-- **Shared settings after a run.** Every binder has a handle to them, and so has the hub itself: all of these
see what was published last. The snapshots taken before the run are still what they were, whatever was
published since. -/
theorem shared_run (k : Backend pool engine) (steps : List Step) :
    ∀ h : Hub pool engine, h.shared.handles = h.binders.length + 1 →
      (h.run k steps).2.shared.views =
          List.replicate ((h.run k steps).2.binders.length + 1) (h.run k steps).2.settings ∧
        h.shared.snapshots <+: (h.run k steps).2.shared.snapshots := by
  induction steps with
  | nil =>
    intro h hhandles
    refine ⟨?_, List.prefix_rfl⟩
    rw [run, Settings.Shared.views, hhandles]
    rfl
  | cons st steps ih =>
    intro h hhandles
    obtain ⟨hshared, hbinders⟩ := shared_step k h st
    have hstep : (h.step k st).2.shared.handles = (h.step k st).2.binders.length + 1 := by
      rw [hshared, hbinders, List.length_append]
      cases st with
      | binder id => exact congrArg (· + 1) hhandles
      | _ => exact hhandles
    have hgrows : h.shared.snapshots <+: (h.step k st).2.shared.snapshots := by
      rw [hshared]
      cases st with
      | settings | bind => exact List.prefix_append _ _
      | _ => exact List.prefix_rfl
    obtain ⟨hviews, hsnapshots⟩ := ih _ hstep
    exact ⟨hviews, hgrows.trans hsnapshots⟩

/-- **A hub's settings are those published last.** -/
theorem settings_run (k : Backend pool engine) (steps : List Step) :
    ∀ h : Hub pool engine, (h.run k steps).2.settings = published h.settings steps := by
  induction steps with
  | nil => exact fun h => rfl
  | cons st steps ih =>
    intro h
    rw [run_cons, ih, settings_step, published, published, List.filterMap_cons]
    cases st.published? with
    | none => rfl
    | some settings => rw [List.getLastD_cons]; rfl

/-- Arranging things leaves the pool alone, and every stream but one that is bound. -/
theorem step_of_arranges (k : Backend pool engine) (h : Hub pool engine) {st : Step}
    (harranges : st.arranges = true) (hopens : st.opens name = false) :
    (h.step k st).2.stream? name = h.stream? name ∧ (h.step k st).2.pool = h.pool := by
  cases st with
  | update settings => exact ⟨rfl, rfl⟩
  | settings => exact ⟨rfl, rfl⟩
  | binder id => exact ⟨rfl, rfl⟩
  | bind binder other info => exact ⟨stream?_step_of_other k h hopens, rfl⟩
  | _ => cases harranges

/-! ### What reads and drains preserve -/

section Keeps

variable {k : Backend pool engine} {P : Stream engine → Prop} {Q : Shown → Prop}
  (hread : ∀ p s arrival buffer, P s →
    Q ⟨.read (s.read k p arrival buffer).1, (s.read k p arrival buffer).1.notices⟩ ∧
      P (s.read k p arrival buffer).2.1)
  (hdrain : ∀ s, P s → Q ⟨.drained s.drain.1, []⟩ ∧ P s.drain.2) (hnothing : Q ⟨.nothing, []⟩)

include hread hdrain hnothing

/-- **What reads and drains preserve of a stream is preserved by every move**, and what they show of it is
all that is shown. -/
theorem Move.keeps {p : pool} {before after : Option (Stream engine)} {st : Step} {one : Shown}
    (h : Move k p name before st one after) (hP : ∀ s ∈ before, P s) :
    (st.uses name = true → Q one) ∧ ∀ s ∈ after, P s := by
  cases h with
  | aside s st one hother =>
    refine ⟨fun huses => ?_, hP⟩
    cases (st.uses_of_other hother).symm.trans huses
  | absent st one hown hshown =>
    refine ⟨fun huses => ?_, hP⟩
    rw [hshown huses]
    exact hnothing
  | read s arrival buffer =>
    obtain ⟨hq, hp⟩ := hread p s arrival buffer (hP s rfl)
    refine ⟨fun _ => hq, ?_⟩
    rintro _ ⟨⟩
    exact hp
  | drain s =>
    obtain ⟨hq, hp⟩ := hdrain s (hP s rfl)
    refine ⟨fun _ => hq, ?_⟩
    rintro _ ⟨⟩
    exact hp
  | look s one => exact ⟨nofun, hP⟩
  | close s st one hcloses =>
    exact ⟨fun huses => absurd huses (st.not_uses_of_closes hcloses), nofun⟩

/-- **It holds after every run** that does not put another stream in its place, and what is shown holds of
all that is shown of the stream. -/
theorem run_keeps (steps : List Step) :
    (∀ st ∈ steps, st.opens name = false) →
      ∀ h : Hub pool engine, (∀ s ∈ h.stream? name, P s) →
        (∀ one ∈ shownOf name steps (h.run k steps).1, Q one) ∧
          ∀ s ∈ (h.run k steps).2.stream? name, P s := by
  induction steps with
  | nil => exact fun _ h hP => ⟨fun one hone => absurd hone List.not_mem_nil, hP⟩
  | cons st steps ih =>
    intro hopens h hP
    obtain ⟨hopen, hrest⟩ := List.forall_mem_cons.1 hopens
    obtain ⟨hshown, hafter⟩ := (move_step k h hopen).keeps hread hdrain hnothing hP
    obtain ⟨hih, hend⟩ := ih hrest (h.step k st).2 hafter
    rw [run_cons]
    refine ⟨?_, hend⟩
    cases huses : st.uses name with
    | false => rwa [shownOf_cons_of_not_uses huses]
    | true =>
      rw [shownOf_cons_of_uses huses]
      exact List.forall_mem_cons.2 ⟨hshown huses, hih⟩

end Keeps

/-- A stream stays, unless it is unbound. -/
theorem Move.isSome {k : Backend pool engine} {p : pool} {before after : Option (Stream engine)}
    {st : Step} {one : Shown} (h : Move k p name before st one after)
    (hcloses : st.closes name = false) (hsome : before.isSome) : after.isSome := by
  cases h with
  | aside s st one hother => exact hsome
  | absent st one hown hshown => exact hsome
  | read s arrival buffer => rfl
  | drain s => rfl
  | look s one => rfl
  | close s st one hclosed => cases hclosed.symm.trans hcloses

/-- **A stream stays until it is unbound**, or another one is put in its place. -/
theorem isSome_run (k : Backend pool engine) (steps : List Step) :
    (∀ st ∈ steps, st.opens name = false) → (∀ st ∈ steps, st.closes name = false) →
      ∀ h : Hub pool engine, (h.stream? name).isSome → ((h.run k steps).2.stream? name).isSome := by
  induction steps with
  | nil => exact fun _ _ h hsome => hsome
  | cons st steps ih =>
    intro hopens hcloses h hsome
    obtain ⟨hopen, hopens⟩ := List.forall_mem_cons.1 hopens
    obtain ⟨hclose, hcloses⟩ := List.forall_mem_cons.1 hcloses
    exact ih hopens hcloses (h.step k st).2 ((move_step k h hopen).isSome hclose hsome)

/-- **A stream is governed by the settings of its binding.** In every run of a hub, from the moment when
a binder, handed out whenever, binds a stream, and for as long as its name stays with it:

* it has a filter exactly if its route is that under the settings published last, and the filter has
  these settings; later steps leave it so, and the stream is there until it is unbound;
* what its reads put to the engine, they put with the threshold of these settings;
* its reads and drains show what they show in any hub that holds a stream bound by these settings, in a
  run of its own steps, out of a pool that answers it the same;
* to publish settings, to hand out a binder or to bind another stream changes neither the stream nor the
  pool;
* so any other steps in between leave all that is shown of it as it is. Only while the engine is still
  awaited, the pool has to answer the stream the same.
-/
theorem run_governed (k : Backend pool engine) (settings : Settings) (p : pool) (id : String)
    (front : List Step) (binder : Nat) (name : String) (info : StreamInfo) {back : List Step}
    (hopens : ∀ st ∈ back, st.opens name = false) :
    let current := published settings front
    let bound := ((new settings p id).run k front).2.step k (.bind binder name info)
    let after := bound.2.run k back
    bound.1.answer =
        .bound (if info.route current = .suppress then some (info.ssrc, current) else none) ∧
      (∀ s ∈ after.2.stream? name, s.Governed info current) ∧
      ((∀ st ∈ back, st.closes name = false) → (after.2.stream? name).isSome) ∧
      (∀ one ∈ shownOf name back after.1, ∀ a ∈ one.analyses, a.threshold = current.threshold) ∧
      (∀ outcome (alone : Hub Unit engine), alone.stream? name = some (.bind info current) →
        (bound.2.Awaits name → ∀ granted ∈ bound.2.granted k name back, granted = outcome) →
          shownOf name (back.filter (Step.isAbout name))
              (alone.run (k.always outcome) (back.filter (Step.isAbout name))).1 =
            shownOf name back after.1) ∧
      (∀ st, st.arranges = true → st.opens name = false →
        (after.2.step k st).2.stream? name = after.2.stream? name ∧
          (after.2.step k st).2.pool = after.2.pool) ∧
      ∀ rest rest', (∀ st ∈ rest, st.opens name = false) → (∀ st ∈ rest', st.opens name = false) →
        rest'.filter (Step.isAbout name) = rest.filter (Step.isAbout name) →
        (after.2.Awaits name → after.2.granted k name rest' = after.2.granted k name rest) →
          shownOf name rest' (after.2.run k rest').1 = shownOf name rest (after.2.run k rest).1 ∧
            (after.2.run k rest').2.stream? name = (after.2.run k rest).2.stream? name := by
  intro current bound after
  have hsettings : ((new settings p id).run k front).2.settings = current := settings_run k front _
  have hbound : bound.2.stream? name = some (.bind info current) := by
    rw [← hsettings]
    exact stream?_insert _ name _
  have hgoverned : ∀ s ∈ bound.2.stream? name, s.Governed info current := by
    rw [hbound]
    rintro _ ⟨⟩
    exact Stream.governed_bind info current
  obtain ⟨hthreshold, hafter⟩ := run_keeps
    (Q := fun one => ∀ a ∈ one.analyses, a.threshold = current.threshold)
    (fun q s arrival buffer hs => hs.read k q arrival buffer)
    (fun s hs => ⟨nofun, hs.drain⟩) nofun back hopens bound.2 hgoverned
  refine ⟨?_, hafter, fun hcloses => ?_, hthreshold, ?_, ?_, ?_⟩
  · change Answer.bound ((Stream.bind info _ : Stream engine).filter?.map _) = _
    rw [hsettings, Stream.bind]
    cases info.route current <;> rfl
  · refine isSome_run k back hopens hcloses bound.2 ?_
    rw [hbound]
    rfl
  · intro outcome alone halone hgranted
    have hprocess : (k.always outcome).process = k.process := rfl
    exact (run_projects hprocess back hopens bound.2 alone (halone.trans hbound.symm)
      fun hawaits granted hmem _ => (hgranted hawaits granted hmem).symm).1
  · exact fun st => step_of_arranges k after.2
  · exact fun rest rest' hrest hrest' => run_congr rfl hrest hrest'

/-- A stream that both ends know to carry audio. -/
def audio (ssrc : UInt32) : StreamInfo := ⟨ssrc, 111, [⟨1, audioLevelUri⟩]⟩

/-- A pool with one engine in it. -/
def oneEngine : Backend Nat Nat := Script.backend ⟨[none, some (.root "none left")], []⟩

/-- The settings change twice, and between the changes a binder is handed out. -/
def renewed : List Step :=
  [.update Settings.default, .binder "late", .update Filter.carrying]

/-- Suppression is disabled, another stream is bound, and the first one is drained. -/
def aside : List Step := [.update Settings.default, .bind 0 "other" (audio 2), .drain "own"]

/-- A binder that was handed out before the last change binds by the last settings, and what is published
next leaves the stream as it is. -/
theorem run_governed_of_renewed :
    let bound := ((new Settings.default 0 "main").run oneEngine renewed).2.step oneEngine
      (.bind 1 "own" (audio 1))
    (∀ st ∈ aside, st.opens "own" = false) ∧
      bound.1.answer = .bound (some (1, Filter.carrying)) ∧
      (∀ s ∈ (bound.2.run oneEngine aside).2.stream? "own",
        s.Governed (audio 1) Filter.carrying) ∧
      ((bound.2.run oneEngine aside).2.stream? "own").isSome := by
  have hopens : ∀ st ∈ aside, st.opens "own" = false := by decide
  have hcloses : ∀ st ∈ aside, st.closes "own" = false := by decide
  obtain ⟨hanswer, hgoverned, hstays, -⟩ :=
    run_governed oneEngine Settings.default 0 "main" renewed 1 "own" (audio 1) hopens
  exact ⟨hopens, hanswer, hgoverned, hstays hcloses⟩

/-- A frame and a byte more. -/
def frameAndOne : Filter.Incoming := .plain 1 (Bytes.zeros 961) 0

/-- Another stream is bound, and something arrives for it before anything does for the first one. -/
def contested : List Step :=
  [.bind 0 "other" (audio 2), .read "other" (.ok ⟨4, []⟩) (.blank 4),
    .read "own" (.ok frameAndOne.delivery) frameAndOne.buffer]

/-- **Later settings may decide who gets an engine.** While suppression stays enabled, the other stream
takes the only engine, and the packet of the first one goes on as it arrived; if suppression is disabled
before the other stream is bound, the first one gets the engine, and its packet loses the byte that now
waits. -/
theorem outcome_moved_by_later_settings :
    ¬ ∀ later,
      (shownOf "own" (.update later :: contested)
        ((((new Filter.carrying 0 "main").step oneEngine (.bind 0 "own" (audio 1))).2.run oneEngine
          (.update later :: contested)).1)).map Shown.outcome? =
      (shownOf "own" contested
        ((((new Filter.carrying 0 "main").step oneEngine (.bind 0 "own" (audio 1))).2.run oneEngine
          contested).1)).map Shown.outcome? := by
  intro hsame
  have hgiven : (shownOf "own" (.update Settings.default :: contested)
      ((((new Filter.carrying 0 "main").step oneEngine (.bind 0 "own" (audio 1))).2.run oneEngine
        (.update Settings.default :: contested)).1)).map Shown.outcome? =
      [some (.delivered ⟨972, []⟩)] := by decide +kernel
  have htaken : (shownOf "own" contested
      ((((new Filter.carrying 0 "main").step oneEngine (.bind 0 "own" (audio 1))).2.run oneEngine
        contested).1)).map Shown.outcome? = [some (.delivered ⟨973, []⟩)] := by decide +kernel
  exact absurd (hgiven.symm.trans ((hsame Settings.default).trans htaken)) (by decide)

end Hub

end NoiseFilter
