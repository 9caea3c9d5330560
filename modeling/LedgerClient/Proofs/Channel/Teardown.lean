import Mathlib.Data.List.Basic
import LedgerClient.Proofs.Channel.Registry
import LedgerClient.Proofs.Channel.Turns
import LedgerClient.Proofs.Channel.Waiting

/-!
# The end of a channel

A channel is closed by its client or by the end of its reader, and from then on nothing is sent.
When the reader ends, everything that waits is released: what is pending fails, every registered
stream ends behind what is still queued, and the callers have their turns. The reason stays the
first one that there was.

## Main definitions

* `Channel.Requests.Bears`, `Channel.Requests.Told`: what an operation was told, and that it has
  failed
* `Channel.Moment.Releases`: the end of the reader releases what waits
* `Channel.Refuses`: a channel begins nothing

## Main results

* `Channel.reader_perform_ended`: only a teardown ends the reader
* `Channel.Leads.closed`: what is closed stays so, and sends nothing
* `Channel.bears_perform`: what an operation was told first stays
* `Channel.Reached.unsettled`, `Channel.Leads.unbegun`: nothing is told before the reader begins,
  which it does not in a closed channel
* `Channel.Leads.told`: an operation that has failed stays so
* `Channel.Reached.releases`: the end of the reader releases whatever waits
* `Channel.teardown_releases`: what comes of the end of the reader and of a closed channel, in every
  run
* `Channel.unbegun_releases_nothing`: what comes of a reader that is stopped before it begins
-/

namespace LedgerClient.Channel

open Rpc (BatchCall Feed Frame Param)

variable {config : Config} {past : List Moment} {c d : Channel} {act : Act} {reason : String}
  {fault : Fault} {n : Nat} {r after : Requests}

/-! ## The end of the reader -/

section Ends

/-- Only a teardown ends the reader. -/
theorem reader_perform_ended (hready : c.Ready act) (h : (c.perform act).reader = .ended) :
    c.reader = .ended ∨ ∃ reason, c.perform act = c.teardown reason := by
  cases act with
  | event event =>
    have heffect := effect_step (c := c) hready
    generalize hafter : (c.step event).1.subscriptions = after at heffect
    have hended : after.reader = .ended := hafter ▸ h
    cases heffect with
    | same | shut => exact .inl hended
    | launch _ reader _ hreader =>
      rcases hreader with ⟨-, rfl⟩ | ⟨-, rfl⟩ <;> cases hended
    | teardown _ reason hstep => exact .inr ⟨reason, hstep⟩
    | visit => exact .inl ((reader_modifyStream _).symm.trans hended)
    | silence | discard =>
      exact .inl ((reader_modifyStream (c := c.deregister _) _).symm.trans hended)
  | route frame rest =>
    cases hroute : c.route frame with
    | error fault => exact .inr ⟨_, take_of_error hroute⟩
    | ok next => exact absurd h (reader_take_of_ok hready hroute)
  | retry => exact absurd h (reader_retry hready)

/-- Nothing is pending after the reader has ended. -/
theorem pending_teardown (c : Channel) (reason : String) : (c.teardown reason).pending = [] := by
  have hpending : (c.teardown reason).pending =
      ((c.pending.map (·.1)).foldl (Requests.fail (c.lastFault reason)) c.requests).pending :=
    congrArg Requests.pending ((requests_teardown c reason).trans (requests_foldl_fail _ _))
  rw [hpending]
  exact pending_foldl_fail fun entry hmem => List.mem_map_of_mem hmem

end Ends

/-! ## What stays -/

section Closed

theorem closed_route {frame : Frame} (h : c.route frame = .ok d) : d.closed = c.closed := by
  unfold route at h
  split at h
  · cases h
    rcases subscriptions_resolve c _ frame with heq | ⟨number, feed, options, heq⟩
    · exact congrArg Subscriptions.closed heq
    · exact congrArg Subscriptions.closed heq
  · rcases notify_eq_ok h with ⟨-, rfl⟩ | ⟨index, s, next, -, -, -, rfl⟩
    · rfl
    · unfold offered
      split
      · exact closed_setStream _ _
      · exact (closed_sweep _ _).trans (closed_setStream _ _)
  · cases h
    exact congrArg Subscriptions.closed (subscriptions_reject _)
  · cases h
    rfl

/-- What is closed stays closed for the same reason. -/
theorem closed_perform (hready : c.Ready act) (hclosed : c.closed = some reason) :
    (c.perform act).closed = some reason := by
  cases act with
  | event event =>
    have heffect := effect_step (c := c) hready
    change (c.step event).1.subscriptions.closed = _
    generalize (c.step event).1.subscriptions = after at heffect ⊢
    cases heffect with
    | same | launch => exact hclosed
    | shut =>
      change some (c.closed.getD "client closed") = some reason
      rw [hclosed]
      rfl
    | teardown => exact closed_teardown_of_closed hclosed _
    | visit => exact (closed_modifyStream _ _).trans hclosed
    | silence | discard => exact (closed_modifyStream (c := c.deregister _) _ _).trans hclosed
  | route frame rest =>
    change (c.take frame rest).closed = _
    unfold take
    split
    · exact closed_teardown_of_closed hclosed _
    · next hroute =>
      split
      · exact (closed_route hroute).trans hclosed
      · exact (closed_route hroute).trans hclosed
  | retry =>
    obtain ⟨id, index, rest, hstalled⟩ := hready
    change c.retry.closed = _
    rw [retry, hstalled]
    dsimp only
    split
    · exact (closed_modifyStream _ _).trans hclosed
    · exact (closed_sweep _ _).trans ((closed_modifyStream _ _).trans hclosed)

/-- What a moment does to the requests of a closed channel: nothing is sent, and no id is used
up. -/
theorem sent_perform_of_closed (hready : c.Ready act) (hclosed : c.closed = some reason) :
    (c.perform act).sent = c.sent ∧ (c.perform act).nextId = c.nextId := by
  change (c.perform act).requests.sent = c.requests.sent ∧
    (c.perform act).requests.nextId = c.requests.nextId
  rcases requests_perform hready with
    ⟨id, expected, frame, settlement, -, -, -, hrequests, -⟩ | ⟨-, heffect⟩
  · rw [hrequests]
    exact ⟨rfl, rfl⟩
  · generalize (c.perform act).requests = after at heffect ⊢
    cases heffect with
    | same => exact ⟨rfl, rfl⟩
    | begins hopen => cases hclosed.symm.trans hopen
    | fails =>
      rw [foldl_fail_eq]
      exact ⟨rfl, rfl⟩
    | gathers => exact ⟨rfl, rfl⟩
    | retires => exact ⟨rfl, rfl⟩

/-- **What is closed stays so for the same reason, and sends nothing.** -/
theorem Leads.closed (h : Leads c past d) (hclosed : c.closed = some reason) :
    d.closed = some reason ∧ d.sent = c.sent ∧ d.nextId = c.nextId := by
  induction h with
  | start => exact ⟨hclosed, rfl, rfl⟩
  | perform act hready h ih =>
    obtain ⟨hstays, hsent, hnext⟩ := ih
    obtain ⟨hsame, hsame'⟩ := sent_perform_of_closed hready hstays
    exact ⟨closed_perform hready hstays, hsame.trans hsent, hsame'.trans hnext⟩

/-- A channel begins nothing: every operation is refused with the fault. A batch is refused for
itself if it is none that can be sent. -/
structure Refuses (c : Channel) (fault : Fault) : Prop where
  call : ∀ method params signalled broken,
    c.step (.call method params signalled broken) = (c, .begun (.error fault))
  subscribe : ∀ feed options signalled broken,
    c.step (.subscribe feed options signalled broken) = (c, .begun (.error fault))
  batch : ∀ calls signalled broken, Rpc.demandBatch calls c.config.batchLimit = .ok () →
    c.step (.batch calls signalled broken) = (c, .begun (.error fault))
  noBatch : ∀ calls signalled broken invalid,
    Rpc.demandBatch calls c.config.batchLimit = .error invalid →
    c.step (.batch calls signalled broken) = (c, .begun (.error invalid))

theorem refuses_of_closed (hclosed : c.closed = some reason) :
    c.Refuses (.transport s!"connection is closed: {reason}" none) := by
  have hdemand (signalled : Bool) : c.demandOpen signalled =
      .error (.transport s!"connection is closed: {reason}" none) := by
    rw [demandOpen, hclosed]
    rfl
  have hbegin (expected : Expected) (method : String) (params : List Param) (signalled : Bool)
      (broken : Option String) : c.begin expected method params signalled broken =
        (c, .error (.transport s!"connection is closed: {reason}" none)) := by
    rw [begin, hdemand]
  refine ⟨fun method params signalled broken => ?_, fun feed options signalled broken => ?_,
    fun calls signalled broken hbatch => ?_, fun calls signalled broken invalid hbatch => ?_⟩
  · rw [step, hbegin]
  · rw [step, hbegin]
  · rw [step, beginBatch, hbatch, hdemand]
  · rw [step, beginBatch, hbatch]

end Closed

/-! ## What callers are told -/

section Callers

/-- Something is true of what an operation was told so far, if it still runs. -/
def Requests.Bears (r : Requests) (n : Nat) (holds : List (Nat × Settlement) → Prop) : Prop :=
  ∀ op ∈ r.running, op.id = n → holds op.settled

/-- An operation has failed with a fault, if it still runs. -/
def Requests.Told (r : Requests) (n : Nat) (fault : Fault) : Prop :=
  r.Bears n fun settled => Operation.firstFault settled = some fault

variable {holds : List (Nat × Settlement) → Prop}

/-- What an operation was told first stays. -/
theorem Requests.Bears.of_map {tell : Operation → Operation} (h : r.Bears n holds)
    (hstays : ∀ settled more, holds settled → holds (settled ++ more))
    (hrunning : after.running = r.running.map tell) (hid : ∀ op, (tell op).id = op.id)
    (hmore : ∀ op, ∃ more, (tell op).settled = op.settled ++ more) : after.Bears n holds := by
  intro told htold hn
  rw [hrunning] at htold
  obtain ⟨op, hop, rfl⟩ := List.mem_map.mp htold
  obtain ⟨more, hsettled⟩ := hmore op
  rw [hsettled]
  exact hstays _ _ (h op hop ((hid op).symm.trans hn))

/-- What stays true as an operation is told more stays true in a moment, unless the moment begins
another operation of this id. -/
theorem bears_perform (hready : c.Ready act) (hknown : c.closed = none → n < c.nextId)
    (hstays : ∀ settled more, holds settled → holds (settled ++ more))
    (h : c.requests.Bears n holds) : (c.perform act).requests.Bears n holds := by
  rcases requests_perform hready with
    ⟨id, expected, frame, settlement, -, -, -, hrequests, -⟩ | ⟨-, heffect⟩
  · rw [hrequests]
    refine h.of_map hstays rfl (fun op => ?_) fun op => ?_
    · split <;> rfl
    · split
      · exact ⟨_, rfl⟩
      · exact ⟨[], (List.append_nil _).symm⟩
  · generalize (c.perform act).requests = after at heffect ⊢
    cases heffect with
    | same => exact h
    | begins hopen hbegins =>
      cases hbegins with
      | unsent => exact h
      | launched hlaunches =>
        intro op hop hn
        rcases List.mem_append.mp hop with hold | hnew
        · exact h op hold hn
        · rw [List.mem_singleton.mp hnew, hlaunches.first] at hn
          exact absurd hn (Nat.ne_of_gt (hknown hopen))
    | @fails other _ _ failing =>
      obtain ⟨tell, hrunning, htell⟩ := exists_fails other failing c.requests
      refine h.of_map hstays hrunning (fun op => (htell op).sameId) fun op => ?_
      obtain ⟨more, hmore, -⟩ := (htell op).settled
      exact ⟨more, hmore⟩
    | gathers =>
      refine h.of_map hstays rfl (fun op => ?_) fun op => ⟨[], ?_⟩
      · split <;> rfl
      · split <;> exact (List.append_nil _).symm
    | retires => exact fun op hop => h op (List.mem_filter.mp hop).1

/-- In a closed channel an operation that has failed stays so. -/
theorem told_perform (hready : c.Ready act) (hclosed : c.closed = some reason)
    (h : c.requests.Told n fault) : (c.perform act).requests.Told n fault := by
  refine bears_perform hready (fun hopen => nomatch hclosed.symm.trans hopen) ?_ h
  intro settled more hfault
  rw [firstFault_append, hfault]
  rfl

theorem Leads.told (h : Leads c past d) (hclosed : c.closed = some reason)
    (htold : c.requests.Told n fault) : d.requests.Told n fault := by
  induction h with
  | start => exact htold
  | perform act hready h ih => exact told_perform hready (h.closed hclosed).1 ih

/-- Where every operation with an id is complete, the caller of one goes on. -/
theorem finish_gather {op : Operation} (hop : op ∈ c.running)
    (hall : ∀ other ∈ c.running, other.id = op.id → other.isComplete = true) :
    ∃ other ∈ c.running, other.id = op.id ∧
      ((c.gather op.id).finish op.id .answer).2 = some other.gather.result := by
  have hids (other : Operation) : (if other.id == op.id then other.gather else other).id =
      other.id := by
    split <;> rfl
  cases hfound : (c.gather op.id).operation? op.id with
  | none =>
    have hnone := List.find?_eq_none.mp hfound _ (List.mem_map_of_mem hop)
    rw [hids] at hnone
    exact absurd (beq_self_eq_true op.id) hnone
  | some told =>
    have hkey := List.find?_some (p := fun other : Operation => other.id == op.id) hfound
    obtain ⟨other, hother, rfl⟩ := List.mem_map.mp (List.mem_of_find?_eq_some hfound)
    rw [hids] at hkey
    rw [if_pos hkey] at hfound
    have hid : other.id = op.id := beq_iff_eq.mp hkey
    have hanswered : other.gather.answered = true := by
      change (other.answered || other.isComplete) = true
      rw [hall other hother hid, Bool.or_true]
    have hverdict : other.gather.verdict? .answer = some other.gather.result :=
      if_pos hanswered
    refine ⟨other, hother, hid, ?_⟩
    rw [finish, hfound]
    dsimp only
    rw [hverdict]

/-- The caller of an operation that has failed is told so. -/
theorem finish_gather_of_told {op : Operation} (hop : op ∈ c.running)
    (h : c.requests.Told op.id fault) :
    ((c.gather op.id).finish op.id .answer).2 = some (.failed fault) := by
  obtain ⟨other, hother, hid, hfinish⟩ := finish_gather hop fun other hother hid => by
    rw [Operation.isComplete, h other hother hid]
    rfl
  have hresult : other.gather.result = .failed fault := by
    have hfault : Operation.firstFault other.gather.settled = some fault := h other hother hid
    rw [Operation.result, hfault]
  rw [hfinish, hresult]

/-- When the reader ends, every operation is told so of what it waits for. -/
theorem exists_running_teardown (c : Channel) (reason : String) :
    ∃ tell : Operation → Operation, (c.teardown reason).running = c.running.map tell ∧
      ∀ op : Operation,
        op.Fails (c.lastFault reason) (c.pending.map (·.1)) c.requests (tell op) := by
  obtain ⟨tell, hrunning, htell⟩ :=
    exists_fails (c.lastFault reason) (c.pending.map (·.1)) c.requests
  have hafter := (requests_teardown c reason).trans (requests_foldl_fail _ _)
  exact ⟨tell, (congrArg Requests.running hafter).trans hrunning, htell⟩

/-- When the reader ends, an operation that waits has failed. -/
theorem Reached.told_teardown {op : Operation} {id : Nat} (h : Reached config past c)
    (hop : op ∈ c.running) (hid : id ∈ op.ids) (hpending : c.isPending id = true)
    (reason : String) : (c.teardown reason).requests.Told op.id (c.lastFault reason) := by
  have haccounted := h.accounted
  obtain ⟨tell, hrunning, htell⟩ := exists_running_teardown c reason
  intro told htold hn
  change told ∈ (c.teardown reason).running at htold
  rw [hrunning] at htold
  obtain ⟨other, hother, rfl⟩ := List.mem_map.mp htold
  cases haccounted.eq_of_id hop hother ((htell other).sameId.symm.trans hn)
  have hwaits : c.requests.isPending id = true := hpending
  obtain ⟨expected, hmem⟩ := isPending_iff.mp hwaits
  exact (htell op).firstFault (List.mem_map_of_mem hmem) hid hwaits
    (h.awaits.unfailed op hop id hid hwaits)

/-- When the reader ends, an operation that does not wait is as it was. -/
theorem mem_running_teardown {op : Operation} (hop : op ∈ c.running)
    (hsettled : ∀ id ∈ op.ids, c.isPending id = false) (reason : String) :
    op ∈ (c.teardown reason).running := by
  obtain ⟨tell, hrunning, htell⟩ := exists_running_teardown c reason
  rw [hrunning]
  exact List.mem_map.mpr ⟨op, hop, (htell op).untold fun id _ hown => hsettled id hown⟩

end Callers

/-! ## The state after the end -/

section Ended

/-- Where nothing is pending and the channel is closed, nothing becomes pending. -/
theorem pending_perform (hready : c.Ready act) (hclosed : c.closed = some reason)
    (hnone : c.pending = []) : (c.perform act).pending = [] := by
  have hsub {entry : Nat × Expected} (hmem : entry ∈ c.requests.pending) : False := by
    change entry ∈ c.pending at hmem
    rw [hnone] at hmem
    cases hmem
  rcases requests_perform hready with
    ⟨id, expected, frame, settlement, -, -, hpending, -⟩ | ⟨-, heffect⟩
  · exact (hsub hpending).elim
  · change (c.perform act).requests.pending = []
    generalize (c.perform act).requests = after at heffect ⊢
    cases heffect with
    | same | gathers => exact hnone
    | begins hopen => cases hclosed.symm.trans hopen
    | @fails other _ _ failing =>
      exact pending_foldl_fail fun entry hmem => (hsub hmem).elim
    | retires =>
      exact List.eq_nil_iff_forall_not_mem.mpr fun entry hmem => hsub (List.mem_filter.mp hmem).1

theorem registry_perform (hready : c.Ready act) (hended : (c.perform act).reader = .ended)
    (hnone : c.registry = []) : (c.perform act).registry = [] := by
  cases reregisters_perform hready with
  | same hregistry => exact hregistry.trans hnone
  | ended hregistry => exact hregistry
  | freed id index hregistry =>
    rw [hregistry]
    change Keyed.without Prod.fst id c.registry = []
    rw [hnone]
    rfl
  | granted _ _ hreader => exact absurd hended hreader

/-- **After the reader has ended nothing is pending and nothing registered.** -/
theorem Reached.ended (h : Reached config past c) (hended : c.reader = .ended) :
    (∃ reason, c.closed = some reason) ∧ c.pending = [] ∧ c.registry = [] := by
  induction h with
  | start => cases hended
  | perform act hready h ih =>
    rcases reader_perform_ended hready hended with hbefore | ⟨reason, heq⟩
    · obtain ⟨⟨reason, hclosed⟩, hpending, hregistry⟩ := ih hbefore
      exact ⟨⟨reason, closed_perform hready hclosed⟩, pending_perform hready hclosed hpending,
        registry_perform hready hended hregistry⟩
    · rw [heq]
      exact ⟨⟨_, closed_teardown _ _⟩, pending_teardown _ _, rfl⟩

/-- After the reader has ended every caller goes on. -/
theorem Reached.answered (h : Reached config past c) (hended : c.reader = .ended) {op : Operation}
    (hop : op ∈ c.running) : ∃ result,
      ((c.gather op.id).finish op.id .answer).2 = some result := by
  obtain ⟨-, hpending, -⟩ := h.ended hended
  obtain ⟨other, -, -, hfinish⟩ := finish_gather hop fun other hother _ => by
    rw [Operation.isComplete, Bool.or_eq_true]
    refine .inr (List.all_eq_true.mpr fun id hid => ?_)
    -- Nothing is pending, so something has come of each of its requests.
    rcases h.awaits.covered other hother id hid with hwaits | ⟨settlement, hmem⟩
    · obtain ⟨expected, hmem⟩ := isPending_iff.mp hwaits
      change (id, expected) ∈ c.pending at hmem
      rw [hpending] at hmem
      cases hmem
    · exact List.any_eq_true.mpr ⟨_, hmem, beq_self_eq_true id⟩
  exact ⟨_, hfinish⟩

end Ended

/-! ## A reader that has not begun -/

section Unbegun

/-- A reader that has begun stays so. -/
theorem hasBegun_perform (hready : c.Ready act) (hbegun : c.reader.hasBegun = true) :
    (c.perform act).reader.hasBegun = true := by
  cases act with
  | event event =>
    rcases reader_step (c := c) hready with heq | ⟨-, -, heq⟩ | ⟨hfresh, -⟩
    · exact (congrArg Reader.hasBegun heq).trans hbegun
    · exact congrArg Reader.hasBegun heq
    · exact absurd (hbegun.symm.trans hfresh) Bool.true_eq_false.mp
  | route frame rest =>
    change (c.take frame rest).reader.hasBegun = true
    cases hroute : c.route frame with
    | error fault =>
      rw [take_of_error hroute]
      rfl
    | ok next =>
      rw [take, hroute]
      dsimp only
      split
      · rfl
      · rcases reader_route hroute with heq | ⟨id, index, heq⟩
        · rw [heq, hbegun]
        · rw [heq]
          rfl
  | retry =>
    obtain ⟨id, index, rest, hstalled⟩ := hready
    change c.retry.reader.hasBegun = true
    rw [retry, hstalled]
    dsimp only
    split
    · rw [reader_modifyStream, hbegun]
    · rw [reader_sweep]
      rfl

theorem Leads.hasBegun (h : Leads c past d) (hbegun : c.reader.hasBegun = true) :
    d.reader.hasBegun = true := by
  induction h with
  | start => exact hbegun
  | perform _ hready _ ih => exact hasBegun_perform hready ih

/-- Nothing is told to an operation before the reader begins. -/
theorem Reached.unsettled (h : Reached config past c) (hfresh : c.reader.hasBegun = false) :
    ∀ op ∈ c.running, op.settled = [] := by
  induction h with
  | start => exact fun op hop => absurd hop List.not_mem_nil
  | @perform past c act hready h ih =>
    have hbefore : c.reader.hasBegun = false := Bool.eq_false_iff.mpr fun hbegun =>
      absurd ((hasBegun_perform hready hbegun).symm.trans hfresh) Bool.true_eq_false.mp
    have hunsettled := ih hbefore
    change ∀ op ∈ (c.perform act).requests.running, op.settled = []
    rcases requests_perform hready with ⟨id, expected, frame, settlement, hanswers⟩ | ⟨-, heffect⟩
    · cases act with
      | route =>
        have hidle : c.reader = .idle := hready
        rw [hidle] at hbefore
        cases hbefore
      | event | retry => cases hanswers.answer
    · generalize (c.perform act).requests = after at heffect ⊢
      cases heffect with
      | same => exact hunsettled
      | begins _ hbegins =>
        cases hbegins with
        | unsent => exact hunsettled
        | launched hlaunches =>
          intro op hop
          rcases List.mem_append.mp hop with hold | hnew
          · exact hunsettled op hold
          · rw [List.mem_singleton.mp hnew]
            exact hlaunches.settled
      | fails hbegun => exact absurd (hbegun.symm.trans hbefore) Bool.true_eq_false.mp
      | gathers =>
        intro told htold
        obtain ⟨op, hop, rfl⟩ := List.mem_map.mp htold
        have hsettled := hunsettled op hop
        split
        · exact hsettled
        · exact hsettled
      | retires => exact fun op hop => hunsettled op (List.mem_filter.mp hop).1

theorem halt_of_unbegun (hfresh : c.reader.hasBegun = false) (hclosed : c.closed = some reason)
    (cause : String) : c.halt cause = { c with reader := .dropped } := by
  rw [halt, if_neg (Bool.eq_false_iff.mp hfresh), hclosed]
  rfl

/-- In a closed channel a reader that has not begun never begins. -/
theorem Leads.unbegun (h : Leads c past d) (hclosed : c.closed = some reason)
    (hfresh : c.reader.hasBegun = false) : d.reader.hasBegun = false := by
  induction h with
  | start => exact hfresh
  | @perform past d act hready h ih =>
    have hshut := (h.closed hclosed).1
    cases act with
    | event event =>
      have heffect := effect_step (c := d) hready
      change (d.step event).1.subscriptions.reader.hasBegun = false
      generalize (d.step event).1.subscriptions = after at heffect ⊢
      cases heffect with
      | same | shut => exact ih
      | launch _ reader _ hreader =>
        rcases hreader with ⟨hopen, -⟩ | ⟨-, rfl⟩
        · cases hshut.symm.trans hopen
        · rfl
      | teardown _ _ _ _ hbegun => exact absurd (hbegun.symm.trans ih) Bool.true_eq_false.mp
      | visit | silence | discard =>
        exact (congrArg Reader.hasBegun (reader_modifyStream _)).trans ih
    | route frame rest =>
      have hidle : d.reader = .idle := hready
      rw [hidle] at ih
      cases ih
    | retry =>
      obtain ⟨id, index, rest, hstalled⟩ := hready
      rw [hstalled] at ih
      cases ih

end Unbegun

/-! ## Every run -/

section Every

/-- A moment closes the channel for a reason, which is the one that there was if it was closed
before, and releases whatever waits. -/
structure Moment.Releases (m : Moment) (reason : String) : Prop where
  closed : m.after.closed = some reason
  same : ∀ before, m.before.closed = some before → before = reason
  pending : m.after.pending = []
  registry : m.after.registry = []
  /-- The caller of an operation that waits gets a turn, and is told the fault whenever it takes
  it. -/
  waiting : ∀ op ∈ m.before.running, ∀ id ∈ op.ids, m.before.isPending id = true →
    Turn.caller op.id op.isBatch ∈ m.after.turns.drop m.before.turns.length ∧
    ∀ events, ∀ o ∈ (Channel.after events m.after).running, o.id = op.id →
      (((Channel.after events m.after).gather op.id).finish op.id .answer).2 =
        some (.failed (.transport reason none))
  /-- What came before counts. -/
  settled : ∀ op ∈ m.before.running, (∀ id ∈ op.ids, m.before.isPending id = false) →
    op ∈ m.after.running
  /-- An open stream ends with the fault, behind what is queued. -/
  streams : ∀ (number : Int) (k : Nat) (s : Stream), m.before.registered? number = some k →
    m.before.streams[k]? = some s → s.isClosed = false →
    ∃ t, m.after.streams[k]? = some t ∧ t.outcome = some (some (.transport reason none)) ∧
      t.queue = s.queue ++ [.ending]

/-- The end of the reader releases whatever waits. -/
theorem Reached.releases (h : Reached config past c) (hready : c.Ready act)
    (hstarted : c.reader ≠ .ended) (hended : (c.perform act).reader = .ended) :
    ∃ reason, (Moment.mk c act).Releases reason := by
  obtain ⟨cause, heq⟩ := (reader_perform_ended hready hended).resolve_left hstarted
  have hafter : (Moment.mk c act).after = c.teardown cause := heq
  refine ⟨c.closed.getD cause, ?_, ?_, ?_, ?_, ?_, ?_, ?_⟩
  · rw [hafter]
    rfl
  · intro before hbefore
    change c.closed = some before at hbefore
    rw [hbefore]
    rfl
  · rw [hafter]
    exact pending_teardown c cause
  · rw [hafter]
    rfl
  · intro op hop id hid hpending
    obtain ⟨new, hturns, hcaller⟩ := exists_turns_teardown hop hid hpending cause
    rw [hafter]
    refine ⟨?_, fun events o ho heq => ?_⟩
    · rw [hturns, List.drop_left]
      exact hcaller
    · -- The operation has failed with the reason, and whatever happens then leaves it so.
      have htold := h.told_teardown hop hid hpending cause
      have hstays := (leads_after events (c.teardown cause)).told (closed_teardown c cause) htold
      rw [← heq] at hstays ⊢
      exact finish_gather_of_told ho hstays
  · rw [hafter]
    exact fun op hop hsettled => mem_running_teardown hop hsettled cause
  · intro number k s hsome hs hopen
    have hmem : k ∈ c.registry.map Prod.snd := List.mem_map_of_mem (mem_registry hsome)
    have hstream := getElem?_teardown c cause k
    change c.streams[k]? = some s at hs
    rw [if_pos hmem, hs, Option.map_some, Stream.close_of_open hopen] at hstream
    rw [hafter]
    exact ⟨_, hstream, rfl, rfl⟩

/-- The client closes the channel, and stops the reader after some other events. -/
theorem after_shut (c : Channel) (between : List Event) (reason : String) :
    Channel.after (.shut :: between ++ [.fail reason]) c =
      ((Channel.after between c.shut).step (.fail reason)).1 := by
  rw [after, List.foldl_append]
  rfl

/-- **The end of the reader releases whatever waits, and a closed channel sends nothing.** After
the reader has ended nothing is pending and nothing registered, and every caller goes on. Whatever
happens to a channel that is closed, the reason stays the same and nothing is sent; every operation
is refused, and changes nothing. If it is the client that closes the channel, a reader that has
begun ends as well, whatever happens before it is stopped. -/
theorem teardown_releases (config : Config) (events : List Event) :
    let past := history events { config }
    let c := Channel.after events { config }
    (∀ m ∈ past, m.before.reader ≠ .ended → m.after.reader = .ended →
      ∃ reason, m.Releases reason) ∧
    (c.reader = .ended → (∃ reason, c.closed = some reason) ∧ c.pending = [] ∧ c.registry = [] ∧
      ∀ op ∈ c.running, ∃ result,
        ((c.gather op.id).finish op.id .answer).2 = some result) ∧
    (∀ reason, c.closed = some reason →
      c.Refuses (.transport s!"connection is closed: {reason}" none) ∧
      ∀ more, (Channel.after more c).closed = some reason ∧
        (Channel.after more c).sent = c.sent ∧ (Channel.after more c).nextId = c.nextId) ∧
    (c.reader.hasBegun = true → ∀ between reason,
      let d := Channel.after (.shut :: between ++ [.fail reason]) c
      d.reader = .ended ∧ d.closed = some (c.closed.getD "client closed")) := by
  intro past c
  have hreached : Reached config past c := reached_after config events
  refine ⟨fun m hm hstarted hended => ?_, fun hended => ?_, fun reason hclosed => ?_,
    fun hbegun between reason => ?_⟩
  · obtain ⟨earlier, -, -, hbefore, hready⟩ := hreached.before hm
    exact Reached.releases hbefore hready hstarted hended
  · obtain ⟨hclosed, hpending, hregistry⟩ := hreached.ended hended
    exact ⟨hclosed, hpending, hregistry, fun op hop => hreached.answered hended hop⟩
  · exact ⟨refuses_of_closed hclosed, fun more => (leads_after more c).closed hclosed⟩
  · -- Whatever comes between, the channel stays closed and the reader has begun.
    have hleads := leads_after between c.shut
    have hshut := (hleads.closed rfl).1
    have hlast : (Channel.after (.shut :: between ++ [.fail reason]) c) =
        (Channel.after between c.shut).teardown reason := by
      rw [after_shut]
      exact step_fail (hleads.hasBegun hbegun) reason
    intro d
    exact ⟨congrArg reader hlast, (congrArg closed hlast).trans (closed_teardown_of_closed hshut _)⟩

/-- A call waits when the connection is lost. -/
theorem teardown_releases_calling :
    let events : List Event := [.start, .call "getSlot" [] false none, .fail "reset"]
    (∃ m ∈ history events { config := {} }, m.Releases "reset") ∧
    (((Channel.after events { config := {} }).gather 1).finish 1 .answer).2 =
      some (.failed (.transport "reset" none)) := by
  intro events
  obtain ⟨hreleases, -, -⟩ := teardown_releases {} events
  let calling := Channel.after [.start, .call "getSlot" [] false none] { config := {} }
  have hlast : ⟨calling, .event (.fail "reset")⟩ ∈ history events { config := {} } :=
    List.mem_cons_of_mem _ (List.mem_cons_of_mem _ List.mem_cons_self)
  have hstarted : calling.reader = .idle := by
    cbv
  have hrunning : calling.running = [{ id := 1, ids := [1], isBatch := false }] := by
    cbv
  have hpending : calling.isPending 1 = true := by
    cbv
  have hended : (Channel.after events { config := {} }).running =
      [{ id := 1, ids := [1], isBatch := false, answered := true
         settled := [(1, .fault (.transport "reset" none))] }] := by
    cbv
  obtain ⟨o, ho, hid⟩ : ∃ o ∈ (Channel.after events { config := {} }).running, o.id = 1 := by
    rw [hended]
    exact ⟨_, List.mem_singleton_self _, rfl⟩
  have hlives : calling.reader ≠ .ended := fun hended => by cases hstarted.symm.trans hended
  have hover : (Moment.mk calling (.event (.fail "reset"))).after.reader = .ended := by
    cbv
  obtain ⟨reason, hlost⟩ := hreleases _ hlast hlives hover
  have hreason : (Moment.mk calling (.event (.fail "reset"))).after.closed = some "reset" := by
    cbv
  cases hlost.closed.symm.trans hreason
  have hwaiting := hlost.waiting _ (hrunning ▸ List.mem_singleton_self _) 1
    (List.mem_singleton_self _) hpending
  exact ⟨⟨_, hlast, hlost⟩, hwaiting.2 [] o ho hid⟩

/-- **A reader that is stopped before it begins releases nothing.** The client closes the channel
and stops a reader that has not begun: it is dropped, and whatever happens then, no operation is
told anything. -/
theorem unbegun_releases_nothing (config : Config) (events between : List Event) (reason : String)
    (hfresh : (Channel.after events { config }).reader.hasBegun = false) :
    let stopped := Channel.after (events ++ (.shut :: between ++ [.fail reason])) { config }
    stopped.reader = .dropped ∧
      ∀ more, ∀ op ∈ (Channel.after more stopped).running, op.settled = [] := by
  intro stopped
  have hleads := leads_after between (Channel.after events { config }).shut
  have hdropped : stopped = { Channel.after between (Channel.after events { config }).shut with
      reader := .dropped } := by
    change Channel.after (events ++ (.shut :: between ++ [.fail reason])) { config } = _
    rw [after, List.foldl_append, ← after, ← after, after_shut]
    exact halt_of_unbegun (hleads.unbegun rfl hfresh) (hleads.closed rfl).1 reason
  refine ⟨congrArg reader hdropped, fun more => ?_⟩
  have hmore : Channel.after more stopped = Channel.after
      (events ++ (.shut :: between ++ [.fail reason]) ++ more) { config } := by
    rw [after, after, List.foldl_append]
    rfl
  have hshut := (congrArg closed hdropped).trans (hleads.closed rfl).1
  have hnever := (leads_after more stopped).unbegun hshut
    (congrArg (Reader.hasBegun ∘ reader) hdropped)
  rw [hmore] at hnever ⊢
  exact (reached_after config _).unsettled hnever

/-- A batch that is none is refused for itself, though the channel is closed. -/
theorem not_refuses_batch :
    let c := Channel.after [.shut] { config := {} }
    c.closed = some "client closed" ∧
      c.step (.batch [] false none) = (c, .begun (.error (.invalid .batchEmpty))) ∧
      ∀ reason cause,
        (c.step (.batch [] false none)).2 ≠ .begun (.error (.transport reason cause)) :=
  ⟨rfl, rfl, fun _ _ heq => by cases heq⟩

end Every

end LedgerClient.Channel
