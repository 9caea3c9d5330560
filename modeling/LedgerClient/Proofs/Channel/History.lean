import LedgerClient.Proofs.Channel.Parts

/-!
# The history of a channel

A message may hold many frames, and the reader may stall between two of them. The history of a
run breaks it up into moments: what happens in one go, and the state before it. A frame is a
moment of its own, so "the first frame that …" can be said of a history, and an invariant has to
be shown for one frame at a time.

## Main definitions

* `Channel.Act`, `Channel.perform`: what happens in one go, and the state after it
* `Channel.Moment`, `Channel.history`: the moments of a run of events
* `Channel.Leads`, `Channel.Reached`: the states that a channel gets into, with their past

## Main results

* `Channel.leads_after`: a run gets into its state by its history
* `Channel.Leads.before`: a moment of the past happened in a state with a past of its own
-/

namespace LedgerClient.Channel

open Rpc (Frame)

/-- What happens in one go. -/
inductive Act
  /-- An event in which nothing is read. -/
  | event (event : Event)
  /-- A frame is routed; these frames come after it. -/
  | route (frame : Frame) (rest : List Frame)
  /-- A notification that was held back is tried again. -/
  | retry

/-- Routes a frame; if that stalls the reader, the frames after it wait. -/
def take (c : Channel) (frame : Frame) (rest : List Frame) : Channel :=
  match c.route frame with
  | .error fault => c.crash fault.message
  | .ok after => match after.reader with
    | .stalled id index _ => { after with reader := .stalled id index rest }
    | _ => after

/-- Tries the notification again at which the reader stalled. -/
def retry (c : Channel) : Channel :=
  match c.reader with
  | .stalled id index _ =>
    let c := c.modifyStream index Stream.proceed
    if c.streams[index]?.any (·.held.isSome) then c
    else { c with reader := .idle }.sweep id index
  | _ => c

/-- The state after an act. -/
def perform (c : Channel) : Act → Channel
  | .event event => (c.step event).1
  | .route frame rest => c.take frame rest
  | .retry => c.retry

/-- When an act may happen: frames are routed while the reader waits for them. -/
def Ready (c : Channel) : Act → Prop
  | .event event => event.reads = false
  | .route _ _ => c.reader = .idle
  | .retry => ∃ id index rest, c.reader = .stalled id index rest

/-- An act, and the state before it. -/
structure Moment where
  before : Channel
  act : Act

namespace Moment

/-- The state after a moment. -/
def after (m : Moment) : Channel := m.before.perform m.act

/-- What a moment gives to the one that brings it about. -/
def output (m : Moment) : Output :=
  match m.act with
  | .event event => (m.before.step event).2
  | _ => .nothing

end Moment

/-- The moments in which frames are routed, up to the one that stalls or ends the reader. -/
def routing : List Frame → Channel → List Moment
  | [], _ => []
  | frame :: frames, c => ⟨c, .route frame frames⟩ :: match (c.take frame frames).reader with
    | .idle => routing frames (c.take frame frames)
    | _ => []

/-- The moments of an event. -/
def moments (c : Channel) : Event → List Moment
  | .accept text => match c.reader, Rpc.Payload.read text c.config.host with
    | .idle, .ok payload => routing payload.frames c
    | .idle, .error (.misuse cause) => [⟨c, .event (.crash (Fault.misuse cause).message)⟩]
    | _, _ => []
  | .proceed => match c.reader with
    | .stalled _ _ rest => ⟨c, .retry⟩ :: match c.retry.reader with
      | .idle => routing rest c.retry
      | _ => []
    | _ => []
  | event => [⟨c, .event event⟩]

/-- The frames that an event reads, as far as the reader does not stall or end before. -/
def incoming (c : Channel) : Event → List Frame
  | .accept text => match c.reader, Rpc.Payload.read text c.config.host with
    | .idle, .ok payload => payload.frames
    | _, _ => []
  | .proceed => match c.reader with
    | .stalled _ _ rest => rest
    | _ => []
  | _ => []

/-- The moments of a run of events. -/
def history : List Event → Channel → List Moment
  | [], _ => []
  | event :: events, c => c.moments event ++ history events (c.step event).1

/-- From a first state a channel gets into another; these moments come between. -/
inductive Leads (first : Channel) : List Moment → Channel → Prop
  | start : Leads first [] first
  | perform {past : List Moment} {c : Channel} (act : Act) (hready : c.Ready act) :
    Leads first past c → Leads first (past ++ [⟨c, act⟩]) (c.perform act)

/-- A channel of this configuration gets into a state; these moments came before. -/
abbrev Reached (config : Config) : List Moment → Channel → Prop :=
  Leads { config }

variable {config : Config} {first : Channel} {past : List Moment} {c after : Channel} {id : Int}
  {index : Nat}
  {frame : Frame} {frames rest : List Frame}

/-! ## The reader -/

section Reader

@[simp] theorem reader_resolve : (c.resolve id frame).reader = c.reader := by
  unfold resolve answer
  repeat' split
  all_goals rfl

@[simp] theorem reader_reject (error : ServerFault) : (c.reject error).reader = c.reader :=
  congrArg Subscriptions.reader (subscriptions_reject error)

/-- A frame that is routed leaves the reader as it is or stalls it. -/
theorem reader_route (h : c.route frame = .ok after) :
    after.reader = c.reader ∨ ∃ id index, after.reader = .stalled id index [] := by
  unfold route at h
  split at h
  · cases h
    exact .inl reader_resolve
  · rcases notify_eq_ok h with ⟨-, rfl⟩ | ⟨index, s, next, -, -, -, rfl⟩
    · exact .inl rfl
    · unfold offered
      split
      · exact .inr ⟨_, _, rfl⟩
      · exact .inl (reader_sweep.trans (reader_setStream _))
  · cases h
    exact .inl (reader_reject _)
  · cases h
    exact .inl rfl

/-- A frame that is routed does not end the reader. -/
theorem reader_take_of_ok (hidle : c.reader = .idle) (h : c.route frame = .ok after) :
    (c.take frame rest).reader ≠ .ended := by
  rw [take, h]
  dsimp only
  rcases reader_route h with heq | ⟨id, index, heq⟩
  · rw [heq, hidle]
    exact fun hended => nomatch (heq.trans hidle).symm.trans hended
  · rw [heq]
    exact nofun

theorem reader_retry (h : c.Ready .retry) : c.retry.reader ≠ .ended := by
  obtain ⟨id, index, rest, hstalled⟩ := h
  rw [retry, hstalled]
  dsimp only
  split
  · rw [reader_modifyStream, hstalled]
    exact nofun
  · rw [reader_sweep]
    exact nofun

theorem routeAll_nil (h : c.reader = .idle) : routeAll [] c = c := by
  change { c with reader := .idle } = c
  rw [← h]

/-- The frames that come after are routed if the reader still waits for them. -/
theorem routeAll_of_idle (hroute : c.route frame = .ok after) (hidle : after.reader = .idle) :
    routeAll (frame :: frames) c = routeAll frames after := by
  rw [routeAll, hroute]
  dsimp only
  rw [hidle]

theorem routeAll_of_stalled (hroute : c.route frame = .ok after)
    (hstalled : after.reader = .stalled id index rest) :
    routeAll (frame :: frames) c = { after with reader := .stalled id index frames } := by
  rw [routeAll, hroute]
  dsimp only
  rw [hstalled]

/-- Where the reader goes on, the frames that come after are routed if it waits for them again. -/
theorem proceed_cases (hstalled : c.reader = .stalled id index rest) :
    c.retry.reader = .idle ∧ c.proceed = routeAll rest c.retry ∨
      c.retry.reader = c.reader ∧ c.proceed = c.retry := by
  unfold retry proceed
  rw [hstalled]
  dsimp only
  split
  · exact .inr ⟨(reader_modifyStream _).trans hstalled, rfl⟩
  · exact .inl ⟨reader_sweep, rfl⟩

end Reader

/-! ## Runs -/

section Runs

/-- What comes after what came before. -/
theorem Leads.append {later : List Moment} {d : Channel} (h : Leads first past c)
    (hlater : Leads c later d) : Leads first (past ++ later) d := by
  induction hlater with
  | start =>
    rw [List.append_nil]
    exact h
  | perform act hready _ ih =>
    rw [← List.append_assoc]
    exact ih.perform act hready

/-- The frames of a message are routed one after the other. -/
theorem Leads.routeAll (h : Leads first past c) (hidle : c.reader = .idle) :
    Leads first (past ++ routing frames c) (routeAll frames c) := by
  induction frames generalizing past c with
  | nil =>
    rw [routeAll_nil hidle, routing, List.append_nil]
    exact h
  | cons frame frames ih =>
    have htaken := h.perform (.route frame frames) hidle
    rw [routing, List.append_cons]
    suffices hrest : (c.take frame frames).reader = .idle ∧
        Channel.routeAll (frame :: frames) c = Channel.routeAll frames (c.take frame frames) ∨
        (c.take frame frames).reader ≠ .idle ∧
        Channel.routeAll (frame :: frames) c = c.take frame frames by
      rcases hrest with ⟨hleft, heq⟩ | ⟨hleft, heq⟩
      · rw [heq, hleft]
        exact ih htaken hleft
      · rw [heq]
        split
        · next hidle => exact absurd hidle hleft
        · rw [List.append_nil]
          exact htaken
    rw [take, Channel.routeAll]
    cases hroute : c.route frame with
    | error fault => exact .inr ⟨nofun, rfl⟩
    | ok next =>
      dsimp only
      rcases reader_route hroute with heq | ⟨id, index, heq⟩
      · rw [heq, hidle]
        exact .inl ⟨heq.trans hidle, rfl⟩
      · rw [heq]
        exact .inr ⟨nofun, rfl⟩

theorem Leads.step (h : Leads first past c) (event : Event) :
    Leads first (past ++ c.moments event) (c.step event).1 := by
  have hother (hreads : event.reads = false) (heq : c.moments event = [⟨c, .event event⟩]) :
      Leads first (past ++ c.moments event) (c.step event).1 := by
    rw [heq]
    exact h.perform (.event event) hreads
  have hnone (hmoments : c.moments event = []) (hstep : (c.step event).1 = c) :
      Leads first (past ++ c.moments event) (c.step event).1 := by
    rw [hmoments, hstep, List.append_nil]
    exact h
  cases event with
  | accept text =>
    cases hreader : c.reader with
    | idle =>
      have hstep : (c.step (.accept text)).1 = c.accept text := by
        rw [Channel.step, hreader]
      cases hread : Rpc.Payload.read text c.config.host with
      | ok payload =>
        rw [hstep, moments, hreader, accept, hread]
        exact h.routeAll hreader
      | error fault =>
        cases fault with
        | misuse cause =>
          have hcrash := step_crash (c := c) (by rw [hreader]; rfl) (Fault.misuse cause).message
          rw [hstep, moments, hreader, accept, hread]
          dsimp only
          rw [← hcrash]
          exact h.perform (.event (.crash _)) rfl
        | _ =>
          refine hnone ?_ ?_
          · rw [moments, hreader, hread]
          · rw [hstep, accept, hread]
    | _ => exact hnone (by rw [moments, hreader]) (by rw [Channel.step, hreader])
  | proceed =>
    cases hreader : c.reader with
    | stalled id index rest =>
      have hretried := h.perform .retry ⟨id, index, rest, hreader⟩
      rw [moments, hreader, List.append_cons]
      change Leads first _ c.proceed
      rcases proceed_cases hreader with ⟨hleft, heq⟩ | ⟨hleft, heq⟩
      · rw [heq, hleft]
        exact hretried.routeAll hleft
      · rw [heq, hleft, hreader]
        dsimp only
        rw [List.append_nil]
        exact hretried
    | _ =>
      refine hnone (by rw [moments, hreader]) ?_
      change c.proceed = c
      rw [Channel.proceed, hreader]
  | _ => exact hother rfl rfl

theorem history_append (earlier later : List Event) (c : Channel) :
    history (earlier ++ later) c =
      history earlier c ++ history later (Channel.after earlier c) := by
  induction earlier generalizing c with
  | nil => rfl
  | cons event earlier ih =>
    rw [List.cons_append, history, ih, history, List.append_assoc]
    rfl

/-- **A run gets into its state by its history.** -/
theorem leads_after (events : List Event) (c : Channel) :
    Leads c (history events c) (Channel.after events c) := by
  suffices hrun : ∀ {past d}, Leads c past d →
      Leads c (past ++ history events d) (Channel.after events d) from
    hrun .start
  induction events with
  | nil =>
    intro past d h
    rw [history, List.append_nil]
    exact h
  | cons event events ih =>
    intro past d h
    rw [history, ← List.append_assoc]
    exact ih (h.step event)

theorem reached_after (config : Config) (events : List Event) :
    Reached config (history events { config }) (Channel.after events { config }) :=
  leads_after events { config }

/-- **A moment of the past happened in a state with a past of its own.** -/
theorem Leads.before {m : Moment} (h : Leads first past c) (hm : m ∈ past) :
    ∃ earlier later, past = earlier ++ m :: later ∧ Leads first earlier m.before ∧
      m.before.Ready m.act := by
  induction h with
  | start => exact absurd hm List.not_mem_nil
  | @perform past c act hready h ih =>
    rcases List.mem_append.mp hm with hm | hm
    · obtain ⟨earlier, later, rfl, hbefore, hact⟩ := ih hm
      exact ⟨earlier, later ++ [⟨c, act⟩], by simp, hbefore, hact⟩
    · cases List.mem_singleton.mp hm
      exact ⟨past, [], rfl, h, hready⟩

end Runs

end LedgerClient.Channel
