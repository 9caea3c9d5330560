import Mathlib
import LedgerClient.Proofs.Channel.Delivery
import LedgerClient.Proofs.Rpc.Legible

/-!
# What one message can do

A message that the host can read cannot take the connection down: one that is a text and nests no
deeper than the host reads. If it is no frame and no list of frames, it changes nothing. If it
notifies something of another shape than its subscription has, that subscription ends and nothing
else is touched. What is said here does not hold of every byte string: a message that is no text
ends the reader, and so does one that nests too deep.

Fixed texts are evaluated by `cbv` here, whose equations for strings and bytes are spread over the
whole library.

## Main definitions

* `Channel.Moment.Notifies`, `Channel.Moment.EndsOne`: a notification comes to an open stream, and
  one subscription ends

## Main results

* `Channel.route_legible`: a legible frame is routed
* `Channel.survives_step`: the frames of what can be read do not end the reader
* `Channel.message_harmless`: what one message can do, in every run
* `Channel.step_accept_of_deep`: a message that nests too deep ends the reader
-/

namespace LedgerClient.Channel

open Rpc (Frame)
open Json (Readable)

variable {config : Config} {past : List Moment} {c after : Channel} {event : Event} {m : Moment}
  {frame : Frame} {frames rest : List Frame} {text : Bytes} {s : Stream} {number : Int} {k : Nat}
  {fault : Fault} {limit : Nat}

/-! ## Frames -/

section Frames

/-- An open stream takes a text that can be read: it is of its shape, or closes the stream. -/
theorem Stream.offer_readable {host : Host} (htext : Readable host.nesting text) (s : Stream) :
    ∃ t, s.offer text host = .ok t := by
  unfold offer
  split
  · exact ⟨s, rfl⟩
  · split
    · exact ⟨_, rfl⟩
    · next hdecode => cases Rpc.Shape.decode_eq_unexpected htext hdecode
    · exact ⟨_, rfl⟩

/-- **A legible frame is routed.** -/
theorem route_legible (h : frame.Legible c.config.host.nesting) :
    ∃ after, c.route frame = .ok after := by
  cases hroute : c.route frame with
  | ok after => exact ⟨after, rfl⟩
  | error fault =>
    unfold route at hroute
    split at hroute
    · cases hroute
    · next hnotice =>
      obtain ⟨index, s, -, -, hoffer⟩ := notify_eq_error hroute
      obtain ⟨t, ht⟩ := s.offer_readable (h _ hnotice)
      cases hoffer.symm.trans ht
    · cases hroute
    · cases hroute

/-- The frames that wait where the reader stalled are legible. -/
def WaitsLegibly (limit : Nat) (c : Channel) : Prop :=
  ∀ id index rest, c.reader = .stalled id index rest → ∀ frame ∈ rest, frame.Legible limit

theorem waitsLegibly_of_idle (h : c.reader = .idle) : c.WaitsLegibly limit :=
  fun _ _ _ hstalled => by cases h.symm.trans hstalled

theorem waitsLegibly_of_stalled {id : Int} {index : Nat} (h : c.reader = .stalled id index rest)
    (hrest : ∀ frame ∈ rest, frame.Legible limit) : c.WaitsLegibly limit :=
  fun _ _ _ hstalled => by cases h.symm.trans hstalled; exact hrest

theorem WaitsLegibly.congr (h : c.WaitsLegibly limit) (hreader : after.reader = c.reader) :
    after.WaitsLegibly limit :=
  fun _ _ _ hstalled => h _ _ _ (hreader.symm.trans hstalled)

/-- Legible frames are routed to the last one, or until the reader stalls. -/
theorem reader_routeAll (hlimit : c.config.host.nesting = limit)
    (h : ∀ frame ∈ frames, frame.Legible limit) (hidle : c.reader = .idle) :
    (routeAll frames c).reader ≠ .ended ∧ (routeAll frames c).WaitsLegibly limit := by
  induction frames generalizing c with
  | nil => exact ⟨fun hended => (by cases hended), waitsLegibly_of_idle rfl⟩
  | cons frame frames ih =>
    obtain ⟨hframe, hframes⟩ := List.forall_mem_cons.mp h
    obtain ⟨next, hroute⟩ := route_legible (c := c) (hlimit ▸ hframe)
    have hsame : next.config.host.nesting = limit := config_route hroute ▸ hlimit
    rcases reader_route hroute with heq | ⟨id, index, heq⟩
    · rw [routeAll_of_idle hroute (heq.trans hidle)]
      exact ih hsame hframes (heq.trans hidle)
    · rw [routeAll_of_stalled hroute heq]
      exact ⟨fun hended => (by cases hended), waitsLegibly_of_stalled rfl hframes⟩

end Frames

/-! ## Messages -/

section Messages

/-- **A message that can be read does not end the reader.** -/
theorem reader_accept (htext : Readable c.config.host.nesting text) (hidle : c.reader = .idle) :
    (c.accept text).reader ≠ .ended ∧ (c.accept text).WaitsLegibly c.config.host.nesting := by
  unfold accept
  rcases Rpc.Payload.read_cases htext with ⟨payload, hread, hframes⟩ | hread
  · rw [hread]
    exact reader_routeAll rfl hframes hidle
  · rw [hread]
    exact ⟨fun hended => (by cases hidle.symm.trans hended), waitsLegibly_of_idle hidle⟩

theorem reader_proceed (h : c.WaitsLegibly c.config.host.nesting) :
    ((c.proceed).reader = .ended → c.reader = .ended) ∧
      c.proceed.WaitsLegibly c.config.host.nesting := by
  cases hreader : c.reader with
  | stalled id index rest =>
    have hretry : c.Ready .retry := ⟨id, index, rest, hreader⟩
    rcases proceed_cases hreader with ⟨hidle, heq⟩ | ⟨hsame, heq⟩
    · obtain ⟨hstays, hlegible⟩ := reader_routeAll (c := c.retry)
        (congrArg (·.host.nesting) config_retry) (h id index rest hreader) hidle
      rw [heq]
      exact ⟨fun hended => absurd hended hstays, hlegible⟩
    · rw [heq]
      exact ⟨fun hended => absurd hended (reader_retry hretry), h.congr hsame⟩
  | _ =>
    rw [proceed, hreader]
    exact ⟨fun hended => hreader.symm.trans hended, h⟩

/-- **What can be read does not end the reader**, so nothing but a failure does. -/
theorem survives_step (h : c.WaitsLegibly c.config.host.nesting)
    (htext : ∀ text, event = .accept text → Readable c.config.host.nesting text) :
    (c.step event).1.WaitsLegibly c.config.host.nesting ∧
      ((c.step event).1.reader = .ended → c.reader = .ended ∨ event.fails = true) := by
  cases hreads : event.reads with
  | false =>
    rcases reader_step (c := c) hreads with heq | ⟨hfails, -, heq⟩ | ⟨-, heq | heq⟩
    · exact ⟨h.congr heq, fun hended => .inl (heq.symm.trans hended)⟩
    · exact ⟨fun _ _ _ hstalled => (by cases heq.symm.trans hstalled), fun _ => .inr hfails⟩
    · exact ⟨waitsLegibly_of_idle heq, fun hended => (by cases heq.symm.trans hended)⟩
    · exact ⟨fun _ _ _ hstalled => (by cases heq.symm.trans hstalled),
        fun hended => (by cases heq.symm.trans hended)⟩
  | true =>
    cases event with
    | accept text =>
      rw [step]
      split
      · next hidle =>
        obtain ⟨hstays, hlegible⟩ := reader_accept (htext text rfl) hidle
        exact ⟨hlegible, fun hended => absurd hended hstays⟩
      · exact ⟨h, .inl⟩
    | proceed =>
      obtain ⟨hstays, hlegible⟩ := reader_proceed h
      exact ⟨hlegible, fun hended => .inl (hstays hended)⟩
    | _ => cases hreads

/-- **In a run that reads what can be read only a failure ends the reader.** -/
theorem survives_after {events : List Event} (h : c.WaitsLegibly c.config.host.nesting)
    (htexts : ∀ text, Event.accept text ∈ events → Readable c.config.host.nesting text) :
    (Channel.after events c).WaitsLegibly c.config.host.nesting ∧
      ((Channel.after events c).reader = .ended →
        c.reader = .ended ∨ ∃ event ∈ events, event.fails = true) := by
  induction events generalizing c with
  | nil => exact ⟨h, .inl⟩
  | cons event events ih =>
    have hsame : (c.step event).1.config = c.config := (Leads.start.step event).config_eq
    obtain ⟨hstep, hended⟩ := survives_step h fun text heq =>
      htexts text (heq ▸ List.mem_cons_self)
    rw [← hsame] at hstep
    obtain ⟨hafter, hrest⟩ := ih hstep fun text htext =>
      hsame ▸ htexts text (List.mem_cons_of_mem _ htext)
    refine ⟨hsame ▸ hafter, fun hlast => ?_⟩
    rcases hrest hlast with hend | ⟨later, hlater, hfails⟩
    · rcases hended hend with hstart | hfails
      · exact .inl hstart
      · exact .inr ⟨event, List.mem_cons_self, hfails⟩
    · exact .inr ⟨later, List.mem_cons_of_mem _ hlater, hfails⟩

/-- A message that is no payload changes nothing. -/
theorem step_accept_of_error (htext : Readable c.config.host.nesting text)
    (h : Rpc.Payload.read text c.config.host = .error fault) : (c.step (.accept text)).1 = c := by
  rw [step]
  split
  · change c.accept text = c
    rcases Rpc.Payload.read_cases htext with ⟨payload, hread, -⟩ | hread
    · cases h.symm.trans hread
    · rw [accept, hread]
  · rfl

/-- A message that cannot be read ends the reader. -/
theorem step_accept_of_misuse {cause : MisuseFault} (hidle : c.reader = .idle)
    (hread : Rpc.Payload.read text c.config.host = .error (.misuse cause)) :
    (c.step (.accept text)).1 = c.crash (Fault.misuse cause).message := by
  rw [step, hidle]
  change c.accept text = _
  rw [accept, hread]

end Messages

/-! ## Where frames come from -/

section Origins

theorem mem_of_mem_routing (hm : m ∈ routing frames c) (hact : m.act = .route frame rest) :
    frame ∈ frames := by
  induction frames generalizing c with
  | nil => cases hm
  | cons first frames ih =>
    rw [routing] at hm
    rcases List.mem_cons.mp hm with rfl | hm
    · cases hact
      exact List.mem_cons_self
    · split at hm
      · exact List.mem_cons_of_mem _ (ih hm)
      · cases hm

/-- A frame that is routed in an event was read in it. -/
theorem mem_incoming (hm : m ∈ c.moments event) (hact : m.act = .route frame rest) :
    frame ∈ c.incoming event := by
  have hother (heq : c.moments event = [⟨c, .event event⟩]) : frame ∈ c.incoming event := by
    rw [heq] at hm
    cases List.mem_singleton.mp hm
    cases hact
  cases event with
  | accept text =>
    rw [moments] at hm
    rw [incoming]
    split at hm
    · next hidle hread =>
      rw [hidle, hread]
      exact mem_of_mem_routing hm hact
    · cases List.mem_singleton.mp hm
      cases hact
    · cases hm
  | proceed =>
    rw [moments] at hm
    rw [incoming]
    split at hm
    · rcases List.mem_cons.mp hm with rfl | hm
      · cases hact
      · split at hm
        · exact mem_of_mem_routing hm hact
        · cases hm
    · cases hm
  | _ => exact hother rfl

theorem WaitsLegibly.incoming (h : c.WaitsLegibly c.config.host.nesting)
    (htext : ∀ text, event = .accept text → Readable c.config.host.nesting text) :
    ∀ frame ∈ c.incoming event, frame.Legible c.config.host.nesting := by
  intro frame hframe
  unfold Channel.incoming at hframe
  split at hframe
  · next text =>
    split at hframe
    · next payload _ hread =>
      rcases Rpc.Payload.read_cases (htext text rfl) with ⟨other, heq, hframes⟩ | heq
      · cases hread.symm.trans heq
        exact hframes frame hframe
      · cases hread.symm.trans heq
    · cases hframe
  · split at hframe
    · next hstalled => exact h _ _ _ hstalled frame hframe
    · cases hframe
  · cases hframe

/-- **In a run that reads what can be read every frame that is routed is legible.** -/
theorem legible_of_mem_history {events : List Event} (h : c.WaitsLegibly c.config.host.nesting)
    (htexts : ∀ text, Event.accept text ∈ events → Readable c.config.host.nesting text)
    (hm : m ∈ history events c) (hact : m.act = .route frame rest) :
    frame.Legible c.config.host.nesting := by
  induction events generalizing c with
  | nil => cases hm
  | cons event events ih =>
    have htext (text : Bytes) (heq : event = .accept text) :
        Readable c.config.host.nesting text :=
      htexts text (heq ▸ List.mem_cons_self)
    rcases List.mem_append.mp hm with hm | hm
    · exact h.incoming htext frame (mem_incoming hm hact)
    · have hsame : (c.step event).1.config = c.config := (Leads.start.step event).config_eq
      have hstep := (survives_step h htext).1
      rw [← hsame] at hstep ⊢
      exact ih hstep (fun text hmem => hsame ▸ htexts text (List.mem_cons_of_mem _ hmem)) hm

end Origins

/-! ## Notifications of another shape -/

section Notifications

/-- A notification comes to an open stream. -/
structure Moment.Notifies (m : Moment) (notice : Rpc.Notice) (k : Nat) (s : Stream) : Prop where
  routes : ∃ frame rest, m.act = .route frame rest ∧ frame.id = none ∧ frame.notice = some notice
  registered : m.before.registered? notice.subscription = some k
  stream : m.before.streams[k]? = some s
  isOpen : s.isClosed = false

/-- A subscription ends with a fault, and nothing else changes: its stream is closed behind what is
queued, its number is free, and the service will be told. The reader goes on. -/
structure Moment.EndsOne (m : Moment) (number : Int) (k : Nat) (s : Stream) (fault : Fault) :
    Prop where
  streams : m.after.streams = m.before.streams.set k (s.close (some fault))
  registry : m.after.registry = Keyed.without Prod.fst number m.before.registry
  orphans : m.after.orphans = m.before.orphans ++ [(s.ending, s.id)]
  requests : m.after.requests = m.before.requests
  closed : m.after.closed = m.before.closed
  reader : m.after.reader = .idle

theorem orphans_orphan (hs : c.streams[k]? = some s) :
    (c.orphan k).orphans = c.orphans ++ [(s.ending, s.id)] := by
  rw [orphan, hs]

theorem orphans_setStream (t : Stream) : (c.setStream k t).orphans = c.orphans := by
  unfold setStream
  split <;> rfl

theorem streams_setStream (hs : c.streams[k]? = some s) (t : Stream) :
    (c.setStream k t).streams = c.streams.set k t := by
  rw [setStream, hs]

/-- A stream that closes on a notification is given up. -/
theorem offered_of_isClosed {t : Stream} (hs : c.streams[k]? = some s)
    (hreg : c.registered? number = some k) (hclosed : t.isClosed = true) (hheld : t.held = none) :
    c.offered number k t = ((c.setStream k t).deregister number).orphan k := by
  have hstream : (c.setStream k t).streams[k]? = some t := by
    rw [getElem?_setStream, if_pos rfl, hs]
    rfl
  have hsame : (c.setStream k t).registered? number = some k :=
    (registered?_congr (registry_setStream t) number).trans hreg
  have hcond : ((c.setStream k t).streams[k]?.any Stream.isClosed &&
      (c.setStream k t).registered? number == some k) = true := by
    rw [hstream, hsame, Option.any_some, hclosed]
    exact beq_self_eq_true _
  rw [offered, hheld, if_neg (by exact Bool.false_ne_true), sweep, if_pos hcond]

theorem notify_of_offer {t : Stream} (hreg : c.registered? number = some k)
    (hs : c.streams[k]? = some s) (hoffer : s.offer text c.config.host = .ok t) :
    c.notify number text = .ok (c.offered number k t) := by
  unfold notify
  rw [hreg]
  dsimp only
  rw [hs]
  dsimp only
  rw [hoffer, offered]
  change (if t.held.isSome then _ else _) = _
  split <;> rfl

/-- **A notification of another shape ends its subscription only.** -/
theorem Reached.endsOne {act : Act} {notice : Rpc.Notice} {cause : CodecFault}
    (h : Reached config past c) (hready : c.Ready act)
    (hnotifies : (Moment.mk c act).Notifies notice k s)
    (hdecode : s.feed.shape.decode notice.result c.config.host = .error (.codec cause)) :
    (Moment.mk c act).EndsOne notice.subscription k s (.codec cause) := by
  obtain ⟨⟨frame, rest, hact, hid, hnotice⟩, hreg, hs, hopen⟩ := hnotifies
  cases hact
  have hidle : c.reader = .idle := hready
  change c.registered? notice.subscription = some k at hreg
  change c.streams[k]? = some s at hs
  have hheld : s.held = none := h.held_eq_none hs hidle
  have hoffer : s.offer notice.result c.config.host = .ok (s.close (some (.codec cause))) := by
    rw [Stream.offer, hopen, if_neg Bool.false_ne_true, hdecode]
  let ended := ((c.setStream k (s.close (some (.codec cause)))).deregister
    notice.subscription).orphan k
  have hroute : c.route frame = .ok ended := by
    rw [route, hid, hnotice]
    dsimp only
    rw [notify_of_offer hreg hs hoffer,
      offered_of_isClosed hs hreg Stream.isClosed_close (Stream.held_close.trans hheld)]
  have hsubscriptions : ended.subscriptions = ((c.setStream k
      (s.close (some (.codec cause)))).deregister notice.subscription).subscriptions :=
    subscriptions_orphan
  have hreader : ended.reader = .idle :=
    (congrArg Subscriptions.reader hsubscriptions).trans ((reader_setStream _).trans hidle)
  have hafter : (Moment.mk c (.route frame rest)).after = ended := by
    change c.take frame rest = ended
    rw [take, hroute]
    dsimp only
    rw [hreader]
  refine ⟨?_, ?_, ?_, ?_, ?_, ?_⟩
  · rw [hafter]
    exact (congrArg Subscriptions.streams hsubscriptions).trans (streams_setStream hs _)
  · rw [hafter]
    refine (congrArg Subscriptions.registry hsubscriptions).trans ?_
    exact congrArg (Keyed.without Prod.fst notice.subscription) (registry_setStream _)
  · have hclosed : ((c.setStream k (s.close (some (.codec cause)))).deregister
        notice.subscription).streams[k]? = some (s.close (some (.codec cause))) := by
      change (c.setStream k _).streams[k]? = _
      rw [getElem?_setStream, if_pos rfl, hs]
      rfl
    have hterms : (s.close (some (.codec cause))).terms = s.terms := Stream.terms_close
    have hending := congrArg Stream.Terms.ending hterms
    have hnumber := congrArg Stream.Terms.id hterms
    change (s.close (some (.codec cause))).ending = s.ending at hending
    change (s.close (some (.codec cause))).id = s.id at hnumber
    rw [hafter, orphans_orphan hclosed, hending, hnumber]
    exact congrArg (· ++ [(s.ending, s.id)]) (orphans_setStream _)
  · rw [hafter]
    exact requests_orphan.trans (requests_deregister.trans (requests_setStream _))
  · rw [hafter]
    exact (congrArg Subscriptions.closed hsubscriptions).trans (closed_setStream _ _)
  · rw [hafter, hreader]

end Notifications

/-! ## Every run -/

section Every

/-- **What one message can do.** In every run that reads texts which nest no deeper than the host
reads, only a failure of the connection or of the reader ends the reader: no such text that is read
does, and no frame of it that waits. A text of this kind that is no frame and no list of frames
changes nothing. A notification that is not of the shape of its subscription ends that subscription,
and changes nothing else. -/
theorem message_harmless (config : Config) (events : List Event)
    (htexts : ∀ text, Event.accept text ∈ events → Readable config.host.nesting text) :
    let c := Channel.after events { config }
    (c.reader = .ended → ∃ event ∈ events, event.fails = true) ∧
    (c.reader ≠ .ended → (c.step .proceed).1.reader ≠ .ended ∧
      ∀ text, Readable config.host.nesting text → (c.step (.accept text)).1.reader ≠ .ended) ∧
    (∀ text fault, Readable config.host.nesting text →
      Rpc.Payload.read text config.host = .error fault → (c.step (.accept text)).1 = c) ∧
    (∀ m ∈ history events { config }, ∀ notice k s fault, m.Notifies notice k s →
      s.feed.shape.decode notice.result config.host = .error fault →
      m.EndsOne notice.subscription k s fault) := by
  intro c
  have hstart : ({ config } : Channel).WaitsLegibly config.host.nesting := nofun
  have hsame : c.config = config := (reached_after config events).config_eq
  obtain ⟨hlegible, hended⟩ := survives_after hstart htexts
  change c.WaitsLegibly config.host.nesting at hlegible
  refine ⟨fun hend => ?_, fun hlives => ⟨fun hend => ?_, fun text htext hend => ?_⟩,
    fun text fault htext hread => ?_, ?_⟩
  · exact (hended hend).resolve_left fun hstarted => by cases hstarted
  · rw [← hsame] at hlegible
    exact hlives ((reader_proceed hlegible).1 hend)
  · have hread : ∀ other, Event.accept text = .accept other →
        Readable c.config.host.nesting other := by
      intro other heq
      cases heq
      rw [hsame]
      exact htext
    rw [← hsame] at hlegible
    exact ((survives_step hlegible hread).2 hend).elim hlives fun hfails => by cases hfails
  · rw [← hsame] at htext hread
    exact step_accept_of_error htext hread
  · intro m hm notice k s fault hnotifies hdecode
    obtain ⟨earlier, -, -, hbefore, hready⟩ := (reached_after config events).before hm
    obtain ⟨frame, rest, hact, -, hnotice⟩ := hnotifies.routes
    have hframe := legible_of_mem_history hstart htexts hm hact
    cases Rpc.Shape.decode_eq_unexpected (hframe notice hnotice) hdecode
    exact Reached.endsOne hbefore hready hnotifies (hbefore.config_eq ▸ hdecode)

/-- A message that is no frame is skipped, and a notification of another shape ends its
subscription. -/
theorem message_harmless_unexpected :
    let events : List Event := [.start, .subscribe Rpc.Feed.root {} false none,
      .accept (Utf8.encode "\x7b\"id\":1,\"result\":7\x7d"),
      .accept (Utf8.encode "\x7bdefinitely not json"),
      .accept (Utf8.encode "\x7b\"params\":\x7b\"subscription\":7,\"result\":\"x\"\x7d\x7d")]
    (Channel.after events { config := {} }).reader ≠ .ended ∧
      ∃ m ∈ history events { config := {} }, ∃ s, m.EndsOne 7 0 s (.codec .unexpectedShape) := by
  intro events
  have hreadable (text : String)
      (hshallow : (Json.Scan.run ⟨1000, .outside⟩ (Utf8.encode text)).isSome = true) :
      Readable ({} : Config).host.nesting (Utf8.encode text) :=
    ⟨Utf8.wellFormed_encode _, hshallow⟩
  have htexts : ∀ text, Event.accept text ∈ events → Readable ({} : Config).host.nesting text := by
    intro text hmem
    simp only [events, List.mem_cons, List.not_mem_nil, or_false, reduceCtorEq, false_or,
      Event.accept.injEq] at hmem
    rcases hmem with rfl | rfl | rfl <;> exact hreadable _ (by cbv)
  obtain ⟨hended, -, -, hends⟩ := message_harmless {} events htexts
  refine ⟨fun hend => ?_, ?_⟩
  · obtain ⟨event, hevent, hfails⟩ := hended hend
    simp only [events, List.mem_cons, List.not_mem_nil, or_false] at hevent
    rcases hevent with rfl | rfl | rfl | rfl | rfl <;> cases hfails
  · let serving := Channel.after (events.take 4) { config := {} }
    let notice : Rpc.Notice := ⟨7, Utf8.encode "\"x\""⟩
    let m : Moment := ⟨serving, .route { notice := some notice } []⟩
    have hidle : serving.reader = .idle := by
      unfold serving events
      cbv
    have hconfig : serving.config = {} := (leads_after _ _).config_eq
    have hread : Rpc.Payload.read
        (Utf8.encode "\x7b\"params\":\x7b\"subscription\":7,\"result\":\"x\"\x7d\x7d")
        ({} : Config).host = .ok (.single { notice := some notice }) := by
      unfold notice
      cbv
    have hlast : m ∈ serving.moments (.accept
        (Utf8.encode "\x7b\"params\":\x7b\"subscription\":7,\"result\":\"x\"\x7d\x7d")) := by
      rw [moments, hidle, hconfig, hread]
      exact List.mem_cons_self
    have hm : m ∈ history events { config := {} } :=
      List.mem_append_right _ (List.mem_append_right _ (List.mem_append_right _
        (List.mem_append_right _ (List.mem_append_left _ hlast))))
    have hstream : serving.streams[0]? = some
        { id := 7, feed := Rpc.Feed.root, ending := "rootUnsubscribe", capacity := 1024
          overflow := .lag } := by
      unfold serving events
      cbv
    have hregistered : serving.registered? 7 = some 0 := by
      unfold serving events
      cbv
    have hdecode : Rpc.Feed.root.shape.decode notice.result ({} : Config).host =
        .error (.codec .unexpectedShape) := by
      unfold notice
      cbv
    -- What serving evaluates to matters no more.
    clear_value serving
    have hroutes : ∃ frame rest, m.act = .route frame rest ∧ frame.id = none ∧
        frame.notice = some notice := ⟨_, _, rfl, rfl, rfl⟩
    exact ⟨m, hm, _, hends m hm notice 0 _ _ ⟨hroutes, hregistered, hstream, rfl⟩ hdecode⟩

/-- **A message that nests deeper than the host reads ends the reader**, whatever comes after the
brackets. -/
theorem step_accept_of_deep {n : Nat} (hidle : c.reader = .idle)
    (hdeep : c.config.host.nesting ≤ n) (rest : Bytes) :
    (c.step (.accept (Utf8.encode "\x7b\"result\":" ++ (List.replicate n 0x5B ++ rest)))).1 =
      c.crash "maximum recursion depth exceeded while deserializing an object" := by
  have hmessage : (Fault.misuse (.text .nesting)).message =
      "maximum recursion depth exceeded while deserializing an object" := rfl
  exact (step_accept_of_misuse hidle (Rpc.Payload.read_of_deep hdeep rest)).trans
    (congrArg c.crash hmessage)

/-- A message that is no text ends the reader, and the call that waits fails with it. -/
theorem message_ends_reader :
    let text : Bytes := Utf8.encode "\x7b\"method\":\"" ++ [0xFF] ++ Utf8.encode "\"\x7d"
    let calling := Channel.after [.start, .call "getSlot" [] false none] { config := {} }
    let c := (calling.step (.accept text)).1
    calling.isPending 1 = true ∧ c.reader = .ended ∧ c.pending = [] ∧
      ((c.gather 1).finish 1 .answer).2 = some (.failed (.transport
        "reader failed: 'utf-8' codec can't decode byte 0xff in position 0: invalid start byte"
        none)) := by
  intro text calling c
  have hread : (Json.Document.read text 1000).using Rpc.Payload.ofTree =
      .error (.text (.string ⟨0, [0xFF], .invalidStart⟩)) := by
    unfold text
    cbv
  have hmisuse : Rpc.Payload.read text Host.plain =
      .error (.misuse (.text (.string ⟨0, [0xFF], .invalidStart⟩))) := by
    rw [Rpc.Payload.read, Host.plain, hread]
    rfl
  have hmessage : (Fault.misuse (.text (.string ⟨0, [0xFF], .invalidStart⟩))).message =
      "'utf-8' codec can't decode byte 0xff in position 0: invalid start byte" := by
    rfl
  have hidle : calling.reader = .idle := by
    unfold calling
    cbv
  have hconfig : calling.config = {} := (leads_after _ _).config_eq
  have hafter : c = calling.crash
      "'utf-8' codec can't decode byte 0xff in position 0: invalid start byte" := by
    refine (step_accept_of_misuse hidle ?_).trans (congrArg calling.crash hmessage)
    rw [hconfig]
    exact hmisuse
  rw [hafter]
  refine ⟨?_, rfl, ?_, ?_⟩
  · unfold calling
    cbv
  · unfold calling
    cbv
  · unfold calling
    cbv

end Every

end LedgerClient.Channel
