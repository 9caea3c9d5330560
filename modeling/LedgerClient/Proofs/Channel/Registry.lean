import LedgerClient.Proofs.Channel.Requests

/-!
# The registry of subscriptions

The registry is kept by the numbers that the service chooses, and a stream is taken out of it by
its number. So the streams that are open are the registered ones only as long as the service gives
no number twice: none that an open stream has, and none of a stream that the caller of its
subscription has not been told of.

## Main definitions

* `Channel.Moment.granted?`, `Channel.Moment.Fresh`: the number that is granted in a moment, and
  when it is new
* `Channel.Reregisters`: what a moment may do to the registry
* `Channel.Registered`: every open stream is the registered one of its number

## Main results

* `Channel.reregisters_perform`: what a moment does to the registry
* `Channel.stream?_perform`: an operation gets its stream by an answer only
* `Channel.Registered.perform`: a moment keeps the open streams registered
* `Channel.Reached.registered`: every open stream is registered if all numbers are new
-/

namespace LedgerClient.Channel

open Rpc (Frame)

variable {config : Config} {past : List Moment} {c d after : Channel} {id : Int} {index k : Nat}
  {act : Act}

/-- The number of the subscription that is granted in a moment, if one is. -/
def Moment.granted? (m : Moment) : Option Int :=
  (m.after.streams[m.before.streams.length]?).map Stream.id

/-- The number that is granted in a moment is new: no open stream has it, and no stream has it
whose subscriber has not been told of it. -/
def Moment.Fresh (m : Moment) : Prop :=
  ∀ number ∈ m.granted?, (∀ s ∈ m.before.streams, s.isClosed = false → s.id ≠ number) ∧
    ∀ op ∈ m.before.running, ∀ k ∈ op.stream?, ∀ s ∈ m.before.streams[k]?, s.id ≠ number

instance (m : Moment) : Decidable m.Fresh :=
  inferInstanceAs (Decidable (∀ number ∈ m.granted?, _ ∧ _))

/-- A number is given up with the stream that holds it: it is registered for that stream, or the
stream has it and is open, or its subscriber has not been told of it. -/
def Frees (c : Channel) (index : Nat) (id : Int) : Prop :=
  c.registered? id = some index ∨
  ∃ s, c.streams[index]? = some s ∧ s.id = id ∧
    (s.isClosed = false ∨ ∃ op ∈ c.running, op.stream? = some index)

/-- What a moment may do to the registry. -/
inductive Reregisters (c after : Channel) : Prop
  | same (hregistry : after.registry = c.registry)
    (hlength : after.streams.length = c.streams.length)
    (hreader : after.reader = .ended → c.reader = .ended)
  /-- The reader ends. -/
  | ended (hregistry : after.registry = [])
    (hlength : after.streams.length = c.streams.length)
    (hclosed : ∀ id k s, c.registered? id = some k → after.streams[k]? = some s →
      s.isClosed = true)
  /-- A number is given up, and a stream is closed. -/
  | freed (id : Int) (index : Nat) (hregistry : after.registry = (c.deregister id).registry)
    (hlength : after.streams.length = c.streams.length)
    (hreader : after.reader = .ended → c.reader = .ended)
    (hclosed : ∀ s, after.streams[index]? = some s → s.isClosed = true)
    (hfrees : Frees c index id)
  /-- A new stream is registered. -/
  | granted {s : Stream} (hregistry : after.registry = (c.register s).registry)
    (hstreams : after.streams = c.streams ++ [s]) (hreader : after.reader ≠ .ended)

/-- Every open stream is the registered one of its number, and a number that is given up with the
stream of a subscriber who has not been told of it is no one else's. -/
structure Registered (c : Channel) : Prop where
  live : ∀ k s, c.streams[k]? = some s → s.isClosed = false → c.registered? s.id = some k
  alone : ∀ op ∈ c.running, ∀ index s k t, op.stream? = some index → c.streams[index]? = some s →
    c.streams[k]? = some t → t.isClosed = false → t.id = s.id → k = index
  ended : c.reader = .ended → c.registry = []

/-! ## The registry in a moment -/

section Registry

/-- A stream that is swept out of the registry has closed. -/
theorem reregisters_sweep (hregistry : d.registry = c.registry)
    (hlength : d.streams.length = c.streams.length)
    (hreader : d.reader = .ended → c.reader = .ended) : Reregisters c (d.sweep id index) := by
  have hsweep := @subscriptions_sweep d id index
  have hlen : (d.sweep id index).streams.length = c.streams.length := by
    rw [streams_sweep, hlength]
  split at hsweep
  · next hswept =>
    obtain ⟨hclosed, hsome⟩ := Bool.and_eq_true_iff.mp hswept
    refine .freed id index ?_ hlen ?_ ?_ ?_
    · refine (congrArg Subscriptions.registry hsweep).trans ?_
      change Keyed.without Prod.fst id d.registry = _
      rw [hregistry]
      rfl
    · rw [reader_sweep]
      exact hreader
    · intro s hs
      rw [streams_sweep] at hs
      rw [hs] at hclosed
      exact hclosed
    · rw [registered?_congr hregistry] at hsome
      exact .inl (beq_iff_eq.mp hsome)
  · refine .same ?_ hlen ?_
    · exact (congrArg Subscriptions.registry hsweep).trans hregistry
    · rw [reader_sweep]
      exact hreader

theorem reregisters_teardown (c : Channel) (reason : String) :
    Reregisters c (c.teardown reason) := by
  refine .ended rfl (length_teardown c reason) fun id k s hsome hs => ?_
  have hmem : k ∈ c.registry.map Prod.snd := List.mem_map_of_mem (mem_registry hsome)
  rw [getElem?_teardown, if_pos hmem] at hs
  obtain ⟨t, -, rfl⟩ := Option.map_eq_some_iff.mp hs
  exact Stream.isClosed_close

theorem Reregisters.congr (h : Reregisters c d) (hsame : after.subscriptions = d.subscriptions) :
    Reregisters c after := by
  have hregistry : after.registry = d.registry := congrArg Subscriptions.registry hsame
  have hstreams : after.streams = d.streams := congrArg Subscriptions.streams hsame
  have hreader : after.reader = d.reader := congrArg Subscriptions.reader hsame
  cases h with
  | same hreg hlen hend =>
    exact .same (hregistry.trans hreg) (by rw [hstreams, hlen]) (by rw [hreader]; exact hend)
  | ended hreg hlen hclosed =>
    refine .ended (hregistry.trans hreg) (by rw [hstreams, hlen]) ?_
    rw [hstreams]
    exact hclosed
  | freed id index hreg hlen hend hclosed hfrees =>
    refine .freed id index (hregistry.trans hreg) (by rw [hstreams, hlen]) ?_ ?_ hfrees
    · rw [hreader]
      exact hend
    · rw [hstreams]
      exact hclosed
  | granted hreg hstr hend =>
    exact .granted (hregistry.trans hreg) (hstreams.trans hstr) (by rw [hreader]; exact hend)

/-- A stream that is closed by someone who holds it gives up its number. -/
theorem reregisters_close {s : Stream} {f : Stream → Stream} (hs : c.streams[index]? = some s)
    (hclosed : (f s).isClosed = true)
    (hheld : s.isClosed = false ∨ ∃ op ∈ c.running, op.stream? = some index) :
    Reregisters c ((c.deregister s.id).modifyStream index f) := by
  refine .freed s.id index (registry_modifyStream _) (length_modifyStream _) ?_ ?_
    (.inr ⟨s, hs, rfl, hheld⟩)
  · rw [reader_modifyStream]
    exact fun hended => hended
  · intro t ht
    rw [getElem?_modifyStream_some (c := c.deregister s.id) hs, if_pos rfl] at ht
    cases ht
    exact hclosed

/-- What an event in which nothing is read does to the registry. -/
theorem reregisters_step {event : Event} (h : event.reads = false) :
    Reregisters c (c.step event).1 := by
  have heffect := effect_step (c := c) h
  generalize hafter : (c.step event).1.subscriptions = after at heffect
  cases heffect with
  | same => exact .congr (.same rfl rfl fun hended => hended) hafter
  | shut =>
    exact .congr (d := { c with closed := some (c.closed.getD "client closed") })
      (.same rfl rfl fun hended => hended) hafter
  | launch _ reader _ hreader =>
    refine .congr (d := { c with reader }) (.same rfl rfl fun hended => ?_) hafter
    rcases hreader with ⟨-, rfl⟩ | ⟨-, rfl⟩ <;> cases hended
  | teardown hvisit reason => exact (reregisters_teardown c reason).congr hafter
  | visit =>
    refine .congr (.same (registry_modifyStream _) (length_modifyStream _) ?_) hafter
    rw [reader_modifyStream]
    exact fun hended => hended
  | silence hevent hs hopen =>
    have hclosed := reregisters_close hs (f := Stream.silence) Stream.isClosed_close (.inl hopen)
    exact hclosed.congr hafter
  | discard hevent ho hstream hs =>
    have hrunning := List.mem_of_find?_eq_some ho
    exact (reregisters_close hs Stream.isClosed_close (.inr ⟨_, hrunning, hstream⟩)).congr hafter

/-- Where the reader stalls, the frames that wait with it do not matter. -/
theorem Reregisters.stall (h : Reregisters c after) (rest : List Frame) :
    Reregisters c { after with reader := .stalled id index rest } := by
  cases h with
  | same hregistry hlength => exact .same hregistry hlength nofun
  | ended hregistry hlength hclosed => exact .ended hregistry hlength hclosed
  | freed id index hregistry hlength _ hclosed hfrees =>
    exact .freed id index hregistry hlength nofun hclosed hfrees
  | granted hregistry hstreams => exact .granted hregistry hstreams nofun

theorem reregisters_offered (next : Stream) :
    Reregisters c (c.offered id index next) := by
  unfold offered
  split
  · exact .same (registry_setStream _) (length_setStream _) nofun
  · refine reregisters_sweep (registry_setStream _) (length_setStream _) ?_
    rw [reader_setStream]
    exact fun hended => hended

/-- What a frame does to the registry. -/
theorem reregisters_route {frame : Frame} (hidle : c.reader = .idle)
    (h : c.route frame = .ok after) : Reregisters c after := by
  have hsame (heq : after.subscriptions = c.subscriptions) : Reregisters c after :=
    .congr (.same rfl rfl fun hended => hended) heq
  unfold route at h
  split at h
  · next id hid =>
    cases h
    rcases subscriptions_resolve c id frame with heq | ⟨number, feed, options, heq⟩
    · exact hsame heq
    · have hreader : c.reader ≠ .ended := by
        rw [hidle]
        exact nofun
      exact .congr (d := c.register (c.newStream number feed options))
        (.granted rfl rfl hreader) heq
  · rcases notify_eq_ok h with ⟨-, rfl⟩ | ⟨index, s, next, -, -, -, rfl⟩
    · exact hsame rfl
    · exact reregisters_offered next
  · cases h
    exact hsame (subscriptions_reject _)
  · cases h
    exact hsame rfl

theorem reregisters_take {frame : Frame} {rest : List Frame} (hidle : c.reader = .idle) :
    Reregisters c (c.take frame rest) := by
  unfold take
  split
  · exact reregisters_teardown c _
  · next hroute =>
    have hrouted := reregisters_route hidle hroute
    split
    · exact hrouted.stall rest
    · exact hrouted

/-- A number that is registered afterwards was registered before, or its stream has just come. -/
theorem Reregisters.before (h : Reregisters c after) (hsome : after.registered? id = some k) :
    c.registered? id = some k ∨
      ∃ s, s.id = id ∧ k = c.streams.length ∧ after.streams = c.streams ++ [s] := by
  cases h with
  | same hregistry => exact .inl ((registered?_congr hregistry id).symm.trans hsome)
  | ended hregistry =>
    rw [registered?, hregistry] at hsome
    cases hsome
  | freed number index hregistry =>
    rw [registered?_congr hregistry, registered?_deregister] at hsome
    split at hsome
    · cases hsome
    · exact .inl hsome
  | @granted s hregistry hstreams =>
    rw [registered?_congr hregistry, registered?_register] at hsome
    split at hsome
    · next hid => exact .inr ⟨s, hid, (Option.some.inj hsome).symm, hstreams⟩
    · exact .inl hsome

/-- **What a moment does to the registry.** -/
theorem reregisters_perform (hready : c.Ready act) : Reregisters c (c.perform act) := by
  cases act with
  | event event => exact reregisters_step hready
  | route frame rest => exact reregisters_take hready
  | retry =>
    obtain ⟨id, index, rest, hstalled⟩ := hready
    change Reregisters c c.retry
    rw [retry, hstalled]
    dsimp only
    split
    · refine .same (registry_modifyStream _) (length_modifyStream _) ?_
      rw [reader_modifyStream]
      exact fun hended => hended
    · refine reregisters_sweep (registry_modifyStream _) (length_modifyStream _) fun hended => ?_
      cases hended

end Registry

/-! ## The streams of operations -/

section Operations

variable {r r' : Requests} {o : Operation}

theorem stream?_settle_fault (fault : Fault) (n : Nat) :
    (o.settle n (.fault fault)).stream? = o.stream? := by
  unfold Operation.stream? Operation.settle
  rw [List.findSome?_append]
  cases o.settled.findSome? _ <;> rfl

/-- Settling a request adds a stream to its operation only if that is what came of it. -/
theorem stream?_settle {settlement : Settlement} {n : Nat}
    (h : (o.settle n settlement).stream? = some k) :
    o.stream? = some k ∨ settlement = .stream k := by
  unfold Operation.stream? Operation.settle at h
  rw [List.findSome?_append, Option.or_eq_some_iff] at h
  rcases h with h | ⟨-, h⟩
  · exact .inl h
  · cases settlement <;> cases h
    exact .inr rfl

/-- No operation gets a stream but by an answer. -/
theorem Requests.Effect.stream? {isOpen hasBegun : Prop}
    (h : r.Effect isOpen hasBegun r') (ho : o ∈ r'.running)
    (hstream : o.stream? = some k) : ∃ before ∈ r.running, before.stream? = some k := by
  cases h with
  | same => exact ⟨o, ho, hstream⟩
  | begins _ h =>
    cases h with
    | unsent => exact ⟨o, ho, hstream⟩
    | launched hlaunches =>
      rcases List.mem_append.mp ho with hold | hnew
      · exact ⟨o, hold, hstream⟩
      · cases List.mem_singleton.mp hnew
        rw [Operation.stream?, hlaunches.settled] at hstream
        cases hstream
  | @fails fault _ _ ids hwhole =>
    clear hwhole
    induction ids generalizing r with
    | nil => exact ⟨o, ho, hstream⟩
    | cons id ids ih =>
      obtain ⟨between, hbetween, hsome⟩ := ih ho
      rw [Requests.fail] at hbetween
      split at hbetween
      · obtain ⟨before, hbefore, rfl⟩ := List.mem_map.mp hbetween
        refine ⟨before, hbefore, ?_⟩
        split at hsome
        · rw [← hsome, stream?_settle_fault]
        · exact hsome
      · exact ⟨between, hbetween, hsome⟩
  | gathers op =>
    obtain ⟨before, hbefore, rfl⟩ := List.mem_map.mp ho
    refine ⟨before, hbefore, ?_⟩
    split at hstream
    · exact hstream
    · exact hstream
  | retires => exact ⟨o, (List.mem_filter.mp ho).1, hstream⟩

/-- An operation that has a stream has had it before, or the stream is new. -/
theorem stream?_perform (hready : c.Ready act) (ho : o ∈ (c.perform act).running)
    (hstream : o.stream? = some k) :
    (∃ before ∈ c.running, before.stream? = some k) ∨ k = c.streams.length := by
  rcases requests_perform hready with
    ⟨n, expected, frame, settlement, -, -, -, hrequests, -, hnew⟩ | ⟨-, heffect⟩
  · have hrunning : (c.perform act).running = (c.requests.settle n settlement).running :=
      congrArg Requests.running hrequests
    rw [hrunning] at ho
    obtain ⟨before, hbefore, rfl⟩ := List.mem_map.mp ho
    split at hstream
    · rcases stream?_settle hstream with hold | hsettled
      · exact .inl ⟨before, hbefore, hold⟩
      · exact .inr (hnew k hsettled)
    · exact .inl ⟨before, hbefore, hstream⟩
  · exact .inl (heffect.stream? ho hstream)

end Operations

/-! ## Registered streams -/

section Registered

/-- A stream that is open after a moment was open before it, or it is the new one. -/
theorem Reached.open_before (h : Reached config past c) (hready : c.Ready act) {s : Stream}
    (hs : (c.perform act).streams[k]? = some s) :
    (∃ t, c.streams[k]? = some t ∧ t.id = s.id ∧ (s.isClosed = false → t.isClosed = false)) ∨
    k = c.streams.length ∧ (c.perform act).streams = c.streams ++ [s] := by
  cases hbefore : c.streams[k]? with
  | none =>
    obtain ⟨hk, hstreams, -⟩ := new_of_getElem?_perform hready hbefore hs
    exact .inr ⟨hk, hstreams⟩
  | some t =>
    obtain ⟨change, hmakes⟩ := h.exists_change hready hbefore
    cases hmakes.after.symm.trans hs
    have hid : t.id = (change.apply t).id :=
      (congrArg Stream.Terms.id (Stream.terms_apply change t)).symm
    refine .inl ⟨t, rfl, hid, fun hopen => ?_⟩
    cases houtcome : t.outcome with
    | none => exact Stream.isClosed_eq_false.mpr houtcome
    | some o =>
      have hstays := Stream.outcome_apply change houtcome
      cases (Stream.isClosed_eq_false.mp hopen).symm.trans hstays

/-- Among open streams, a number that is given up is that of the stream that it is given up
with. -/
theorem Registered.eq_of_frees (h : Registered c) (hfrees : Frees c index id) {t : Stream}
    (ht : c.streams[k]? = some t) (hopen : t.isClosed = false) (hid : t.id = id) : k = index := by
  have hlive := h.live k t ht hopen
  rw [hid] at hlive
  rcases hfrees with hsome | ⟨s, hs, rfl, hsopen | ⟨op, hop, hstream⟩⟩
  · exact Option.some.inj (hlive.symm.trans hsome)
  · exact Option.some.inj (hlive.symm.trans (h.live index s hs hsopen))
  · exact h.alone op hop index s k t hstream hs ht hopen hid

/-- Where no stream is new, a stream that is open after a moment was open before it. -/
theorem Reached.holder (h : Reached config past c) (hready : c.Ready act)
    (hlength : (c.perform act).streams.length = c.streams.length) {s : Stream}
    (hs : (c.perform act).streams[k]? = some s) :
    ∃ t, c.streams[k]? = some t ∧ t.id = s.id ∧ (s.isClosed = false → t.isClosed = false) := by
  rcases h.open_before hready hs with hold | ⟨-, hgrown⟩
  · exact hold
  · rw [hgrown, List.length_append] at hlength
    exact absurd hlength (Nat.succ_ne_self _)

/-- Where no stream is new, an operation has the stream that it had, and the number of that is still
no one else's. -/
theorem Registered.alone_perform (h : Registered c) (hreached : Reached config past c)
    (hready : c.Ready act) (hlength : (c.perform act).streams.length = c.streams.length) :
    ∀ op ∈ (c.perform act).running, ∀ index s k t, op.stream? = some index →
      (c.perform act).streams[index]? = some s → (c.perform act).streams[k]? = some t →
      t.isClosed = false → t.id = s.id → k = index := by
  intro op hop index s k t hstream hs ht hopen hid
  obtain ⟨s', hs', hsid, -⟩ := hreached.holder hready hlength hs
  obtain ⟨t', ht', htid, hopened⟩ := hreached.holder hready hlength ht
  rcases stream?_perform hready hop hstream with ⟨before, hbefore, hold⟩ | rfl
  · refine h.alone before hbefore index s' k t' hold hs' ht' (hopened hopen) ?_
    rw [hsid, htid, hid]
  · rw [List.getElem?_eq_none (Nat.le_refl _)] at hs'
    cases hs'

/-- A new stream is registered, and those that were open stay so, if its number is new. -/
theorem Registered.granted (h : Registered c) (hready : c.Ready act)
    (hfresh : (Moment.mk c act).Fresh) {s : Stream}
    (hregistry : (c.perform act).registry = (c.register s).registry)
    (hstreams : (c.perform act).streams = c.streams ++ [s])
    (hreader : (c.perform act).reader ≠ .ended) : Registered (c.perform act) := by
  have hnew : (c.perform act).streams[c.streams.length]? = some s := by
    rw [hstreams, List.getElem?_concat_length]
  have hgranted : (Moment.mk c act).granted? = some s.id := congrArg (Option.map Stream.id) hnew
  obtain ⟨hopens, hheld⟩ := hfresh s.id hgranted
  have hcases {k : Nat} {t : Stream} (ht : (c.perform act).streams[k]? = some t) :
      c.streams[k]? = some t ∨ k = c.streams.length ∧ t = s := by
    rcases Nat.lt_or_ge k c.streams.length with hlt | hge
    · rw [hstreams, List.getElem?_append_left hlt] at ht
      exact .inl ht
    · have hlt := (List.getElem?_eq_some_iff.mp ht).1
      rw [hstreams, List.length_append, List.length_singleton] at hlt
      obtain rfl : k = c.streams.length := by omega
      exact .inr ⟨rfl, Option.some.inj (ht.symm.trans hnew)⟩
  refine ⟨fun k t ht hopen => ?_, ?_, fun hended => absurd hended hreader⟩
  · rw [registered?_congr hregistry, registered?_register]
    rcases hcases ht with hold | ⟨rfl, rfl⟩
    · rw [if_neg (Ne.symm (hopens t (List.mem_of_getElem? hold) hopen))]
      exact h.live k t hold hopen
    · exact if_pos rfl
  · intro op hop index s' k t hstream hs' ht hopen hid
    rcases hcases ht with holdt | ⟨rfl, rfl⟩
    · rcases hcases hs' with holds | ⟨rfl, rfl⟩
      · rcases stream?_perform hready hop hstream with ⟨before, hbefore, hold⟩ | rfl
        · exact h.alone before hbefore index s' k t hold holds holdt hopen hid
        · rw [List.getElem?_eq_none (Nat.le_refl _)] at holds
          cases holds
      · exact absurd hid (hopens t (List.mem_of_getElem? holdt) hopen)
    · rcases hcases hs' with holds | ⟨rfl, -⟩
      · rcases stream?_perform hready hop hstream with ⟨before, hbefore, hold⟩ | rfl
        · exact absurd hid.symm (hheld before hbefore index hold s' holds)
        · rfl
      · rfl

/-- **A moment keeps the open streams registered**, if the number that it may grant is new. -/
theorem Registered.perform (h : Registered c) (hreached : Reached config past c)
    (hready : c.Ready act) (hfresh : (Moment.mk c act).Fresh) : Registered (c.perform act) := by
  cases reregisters_perform hready with
  | same hregistry hlength hreader =>
    refine ⟨fun k s hs hopen => ?_, h.alone_perform hreached hready hlength, fun hended => ?_⟩
    · obtain ⟨t, ht, hid, hopened⟩ := hreached.holder hready hlength hs
      rw [registered?_congr hregistry, ← hid]
      exact h.live k t ht (hopened hopen)
    · rw [hregistry]
      exact h.ended (hreader hended)
  | ended hregistry hlength hclosed =>
    refine ⟨fun k s hs hopen => ?_, h.alone_perform hreached hready hlength, fun _ => hregistry⟩
    obtain ⟨t, ht, -, hopened⟩ := hreached.holder hready hlength hs
    rw [hclosed t.id k s (h.live k t ht (hopened hopen)) hs] at hopen
    cases hopen
  | freed id index hregistry hlength hreader hclosed hfrees =>
    refine ⟨fun k s hs hopen => ?_, h.alone_perform hreached hready hlength, fun hended => ?_⟩
    · obtain ⟨t, ht, hid, hopened⟩ := hreached.holder hready hlength hs
      rw [registered?_congr hregistry, registered?_deregister, ← hid]
      split
      · next heq =>
        cases h.eq_of_frees hfrees ht (hopened hopen) heq
        rw [hclosed s hs] at hopen
        cases hopen
      · exact h.live k t ht (hopened hopen)
    · rw [hregistry]
      change Keyed.without Prod.fst id c.registry = []
      rw [h.ended (hreader hended)]
      rfl
  | granted hregistry hstreams hreader => exact h.granted hready hfresh hregistry hstreams hreader

/-- **Every open stream is registered**, if every number that was granted was new. -/
theorem Reached.registered (h : Reached config past c) (hfresh : ∀ m ∈ past, m.Fresh) :
    Registered c := by
  induction h with
  | start =>
    refine ⟨fun k s hs => ?_, fun op hop => absurd hop List.not_mem_nil, fun _ => rfl⟩
    cases List.getElem?_nil.symm.trans hs
  | perform act hready hreached ih =>
    have hbefore := ih fun m hm => hfresh m (List.mem_append_left _ hm)
    exact hbefore.perform hreached hready (hfresh _ List.mem_concat_self)

end Registered

end LedgerClient.Channel
