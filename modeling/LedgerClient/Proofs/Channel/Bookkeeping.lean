import Mathlib.Data.List.Induction
import Mathlib.Data.List.Nodup
import LedgerClient.Proofs.Channel.Teardown

/-!
# The books of a channel

What a channel writes down about its requests can be read off its history. The operations that run
are those that were begun and have not ended. A request is pending as long as its operation runs and
no frame has answered it, no error has rejected its batch, and the reader has not ended. So nothing
is left behind by an operation that has ended, whatever has become of it.

The history is that of what callers see: an operation begins where a caller is given its id, and
ends where the caller is told what came of it.

## Main definitions

* `Channel.Moment.begun?`, `Channel.Moment.ended?`: the operation that a moment begins or ends
* `Channel.inFlight`: the operations that were begun and have not ended
* `Channel.Moment.Disposes`: a moment answers, rejects or releases a request
* `Channel.Outstanding`: a request was begun with an operation in flight, and nothing has disposed
  of it since

## Main results

* `Channel.Reached.books`: what a moment does to the books
* `Channel.Reached.running_eq`, `Channel.Reached.isPending_iff`: the books in every state
* `Channel.bookkeeping_exact`: nothing is left behind, in every run
-/

namespace LedgerClient.Channel

open Rpc (BatchCall Frame Param)

/-- An operation as it was begun. -/
def Operation.initial (op : Operation) : Operation :=
  { id := op.id, ids := op.ids, isBatch := op.isBatch }

/-- The event begins a batch. -/
def Event.isBatch : Event → Bool
  | .batch .. => true
  | _ => false

/-- Nothing has begun or ended. -/
def Output.IsQuiet : Output → Prop
  | .begun (.ok _) | .ended _ => False
  | _ => True

namespace Moment

/-- The operation that a moment begins. A batch has a request for each call, and every other
operation has one. -/
def begun? (m : Moment) : Option Operation :=
  match m.act, m.output with
  | .event (.batch calls _ _), .begun (.ok id) =>
    some { id, ids := (List.range calls.length).map (id + ·), isBatch := true }
  | _, .begun (.ok id) => some { id, ids := [id], isBatch := false }
  | _, _ => none

/-- The id of the operation that a moment ends. -/
def ended? (m : Moment) : Option Nat :=
  match m.act, m.output with
  | .event (.finish op _), .ended _ => some op
  | _, _ => none

/-- After this moment the request waits no more, though its operation may still run. -/
inductive Disposes (m : Moment) (id : Nat) : Prop
  /-- A frame with the id is routed. -/
  | answered {frame : Frame} {rest : List Frame} (hact : m.act = .route frame rest)
    (hid : frame.id = some (id : Int))
  /-- An error without id is routed, and the request is of the batch that it rejects. -/
  | rejected {frame : Frame} {rest : List Frame} {error : ServerFault} {ids : List Nat}
    (hact : m.act = .route frame rest) (hid : frame.id = none) (hnotice : frame.notice = none)
    (herror : frame.error = some error) (hbatch : m.before.waitingBatch? = some ids)
    (hmem : id ∈ ids)
  /-- The reader ends. -/
  | released (hbefore : m.before.reader ≠ .ended) (hafter : m.after.reader = .ended)

end Moment

/-- The operations in flight: a moment may end one of them, and may begin another. -/
def inFlight (past : List Moment) : List Operation :=
  past.foldl (fun ops m => ops.filter (fun op => m.ended? != some op.id) ++ m.begun?.toList) []

/-- The request was begun with an operation in flight, and nothing has disposed of it since. -/
def Outstanding (past : List Moment) (id : Nat) : Prop :=
  ∃ op ∈ inFlight past, id ∈ op.ids ∧ ∃ earlier m later, past = earlier ++ m :: later ∧
    m.begun? = some op ∧ ∀ other ∈ later, ¬other.Disposes id

variable {config : Config} {past : List Moment} {c after : Channel} {m : Moment} {act : Act}
  {event : Event} {op : Operation} {id : Nat}

/-! ## One moment -/

section Moments

/-- What a moment does to the books: an operation that it ends runs no more, and one that it begins
does; a request stays pending unless the moment disposes of it or ends its operation. The requests
of an operation that it begins are new. -/
structure Moment.Books (m : Moment) : Prop where
  begun : ∀ op, m.begun? = some op → op.id ∈ op.ids ∧ op.ids.Pairwise (· < ·) ∧
    ∀ id ∈ op.ids, m.before.nextId ≤ id ∧ id < m.after.nextId
  ended : ∀ n, m.ended? = some n → ∃ op ∈ m.before.running, op.id = n
  running : m.after.running.map Operation.initial =
    (m.before.running.map Operation.initial).filter (fun op => m.ended? != some op.id) ++
      m.begun?.toList
  pending : ∀ id, m.after.isPending id = true ↔
    (m.before.isPending id = true ∧ ¬m.Disposes id ∧
      ∀ op ∈ m.before.running, id ∈ op.ids → m.ended? ≠ some op.id) ∨
    ∃ op, m.begun? = some op ∧ id ∈ op.ids

/-- A moment that neither begins nor ends an operation. -/
theorem Moment.Books.of_quiet {tell : Operation → Operation} (hbegun : m.begun? = none)
    (hended : m.ended? = none) (hrunning : m.after.running = m.before.running.map tell)
    (htell : ∀ op, (tell op).initial = op.initial)
    (hpending : ∀ id, m.after.isPending id = true ↔
      m.before.isPending id = true ∧ ¬m.Disposes id) : m.Books where
  begun := by
    rw [hbegun]
    exact nofun
  ended := by
    rw [hended]
    exact nofun
  running := by
    have hsame : Operation.initial ∘ tell = Operation.initial := funext htell
    rw [hrunning, hended, hbegun, List.map_map, hsame, Option.toList_none, List.append_nil,
      List.filter_eq_self.mpr]
    exact fun _ _ => rfl
  pending := by
    intro id
    rw [hpending, hbegun, hended]
    simp

/-- A moment in which nothing becomes of requests. -/
theorem Moment.Books.of_same (hbegun : m.begun? = none) (hended : m.ended? = none)
    (hrunning : m.after.running = m.before.running) (hpending : m.after.pending = m.before.pending)
    (hdisposes : ∀ id, m.before.isPending id = true → ¬m.Disposes id) : m.Books := by
  have hkept : m.after.running = m.before.running.map id := by
    rw [hrunning, List.map_id]
  refine .of_quiet hbegun hended hkept (fun _ => rfl) fun id => ?_
  rw [Channel.isPending, hpending]
  exact (and_iff_left_of_imp (hdisposes id)).symm

/-- A moment that begins an operation. -/
theorem Moment.Books.of_begun (expected : Expected) (hbegun : m.begun? = some op)
    (hids : op.id ∈ op.ids ∧ op.ids.Pairwise (· < ·) ∧
      ∀ id ∈ op.ids, m.before.nextId ≤ id ∧ id < m.after.nextId)
    (hended : m.ended? = none) (hdisposes : ∀ id, ¬m.Disposes id)
    (hrunning : m.after.running = m.before.running ++ [op]) (hinitial : op.initial = op)
    (hpending : m.after.pending = m.before.pending ++ op.ids.map fun id => (id, expected)) :
    m.Books where
  begun := by
    intro other hother
    cases hbegun.symm.trans hother
    exact hids
  ended := by
    rw [hended]
    exact nofun
  running := by
    rw [hrunning, hended, hbegun, List.map_append, List.map_singleton, hinitial,
      List.filter_eq_self.mpr]
    · rfl
    · exact fun _ _ => rfl
  pending := by
    intro id
    have hnew : (op.ids.map fun id => (id, expected)).any (·.1 == id) = true ↔ id ∈ op.ids := by
      simp
    rw [Channel.isPending, hpending, List.any_append, Bool.or_eq_true, hnew, hbegun, hended]
    simp [hdisposes, Channel.isPending]

/-! ### Events -/

theorem begun?_eq_none (h : m.output.IsQuiet) : m.begun? = none := by
  unfold Moment.begun?
  split
  · next hout =>
    rw [hout] at h
    exact h.elim
  · next hout _ =>
    rw [hout] at h
    exact h.elim
  · rfl

theorem ended?_eq_none (h : m.output.IsQuiet) : m.ended? = none := by
  unfold Moment.ended?
  split
  · next hout =>
    rw [hout] at h
    exact h.elim
  · rfl

theorem ended?_of_begun {begun : Except Fault Nat} (hout : m.output = .begun begun) :
    m.ended? = none := by
  unfold Moment.ended?
  rw [hout]
  split
  · next heq => cases heq
  · rfl

theorem begun?_of_ok {n : Nat} (hbatch : event.isBatch = false)
    (hout : (c.step event).2 = .begun (.ok n)) :
    (Moment.mk c (.event event)).begun? = some { id := n, ids := [n], isBatch := false } := by
  cases event with
  | batch => cases hbatch
  | _ => simp only [Moment.begun?, Moment.output, hout]

/-- No event disposes of a request unless it ends the reader. -/
theorem not_disposes_of_lives
    (hlives : c.reader ≠ .ended → (c.step event).1.reader ≠ .ended) :
    ¬(Moment.mk c (.event event)).Disposes id := by
  intro h
  cases h with
  | answered hact => cases hact
  | rejected hact => cases hact
  | released hbefore hafter => exact hlives hbefore hafter

theorem not_disposes_event (hreads : event.reads = false) (hfails : event.fails = false) :
    ¬(Moment.mk c (.event event)).Disposes id := by
  refine not_disposes_of_lives fun hbefore hafter => ?_
  rcases reader_step (c := c) hreads with heq | ⟨hfailed, -⟩ | ⟨-, hidle | hdropped⟩
  · exact hbefore (heq.symm.trans hafter)
  · cases hfails.symm.trans hfailed
  · cases hidle.symm.trans hafter
  · cases hdropped.symm.trans hafter

/-- An event in which nothing becomes of requests. -/
theorem books_of_same (hreads : event.reads = false) (hfails : event.fails = false)
    (hquiet : (c.step event).2.IsQuiet) (hrunning : (c.step event).1.running = c.running)
    (hpending : (c.step event).1.pending = c.pending) : (Moment.mk c (.event event)).Books :=
  .of_same (begun?_eq_none hquiet) (ended?_eq_none hquiet) hrunning hpending
    fun _ _ => not_disposes_event hreads hfails

/-- An event that is of no concern but to a reader, which does not end. -/
theorem books_of_reader {reader : Reader} (hlives : c.reader ≠ .ended → reader ≠ .ended)
    (hquiet : (c.step event).2.IsQuiet) (hstep : (c.step event).1 = { c with reader }) :
    (Moment.mk c (.event event)).Books := by
  refine .of_same (begun?_eq_none hquiet) (ended?_eq_none hquiet) ?_ ?_ fun _ _ =>
    not_disposes_of_lives ?_
  · exact (congrArg Channel.running hstep).trans rfl
  · exact (congrArg Channel.pending hstep).trans rfl
  · rw [hstep]
    exact hlives

/-- An event that may begin an operation of one request. -/
theorem books_of_begin {d : Channel} {expected : Expected} {method : String} {params : List Param}
    {signalled : Bool} {broken : Option String} (hreads : event.reads = false)
    (hfails : event.fails = false) (hbatch : event.isBatch = false)
    (hstep : c.step event = ((d.begin expected method params signalled broken).1,
      .begun (d.begin expected method params signalled broken).2))
    (hd : d.requests = c.requests) :
    (Moment.mk c (.event event)).Books := by
  have hrunning : d.running = c.running := congrArg Requests.running hd
  have hpending : d.pending = c.pending := congrArg Requests.pending hd
  have hnext : d.nextId = c.nextId := congrArg Requests.nextId hd
  rcases begin_cases d expected method params signalled broken with
    ⟨fault, heq⟩ | ⟨-, ⟨fault, heq⟩ | heq⟩ <;> rw [heq] at hstep
  · refine books_of_same hreads hfails ?_ ?_ ?_ <;> rw [hstep]
    · exact trivial
    · exact hrunning
    · exact hpending
  · refine books_of_same hreads hfails ?_ ?_ ?_ <;> rw [hstep]
    · exact trivial
    · exact hrunning
    · exact hpending
  · have hbegun := begun?_of_ok hbatch (congrArg Prod.snd hstep)
    refine .of_begun expected hbegun
      ⟨List.mem_singleton_self _, List.pairwise_singleton _ _, ?_⟩
      (ended?_of_begun (congrArg Prod.snd hstep)) (fun _ => not_disposes_event hreads hfails)
      ?_ rfl ?_
    · change ∀ id ∈ [d.nextId], c.nextId ≤ id ∧ id < (c.step event).1.nextId
      rw [hstep, ← hnext, List.forall_mem_singleton]
      exact ⟨Nat.le_refl _, Nat.lt_succ_self _⟩
    · change (c.step event).1.running = c.running ++ _
      rw [hstep, ← hrunning]
    · change (c.step event).1.pending = c.pending ++ _
      rw [hstep, ← hpending]
      rfl

theorem books_batch (calls : List BatchCall) (signalled : Bool) (broken : Option String) :
    (Moment.mk c (.event (.batch calls signalled broken))).Books := by
  have hstep : c.step (.batch calls signalled broken) =
    ((c.beginBatch calls signalled broken).1, .begun (c.beginBatch calls signalled broken).2) := rfl
  rcases beginBatch_cases c calls signalled broken with
    ⟨fault, heq⟩ | ⟨hcalls, -, ⟨fault, heq⟩ | heq⟩ <;> rw [heq] at hstep
  · refine books_of_same rfl rfl ?_ ?_ ?_ <;> rw [hstep]
    exact trivial
  · refine books_of_same rfl rfl ?_ ?_ ?_ <;> rw [hstep]
    exact trivial
  · have hbegun : (Moment.mk c (.event (.batch calls signalled broken))).begun? =
        some { id := c.nextId, ids := (List.range calls.length).map (c.nextId + ·),
               isBatch := true } := by
      simp only [Moment.begun?, Moment.output, hstep]
    refine .of_begun .entry hbegun ⟨?_, ?_, ?_⟩
      (ended?_of_begun (congrArg Prod.snd hstep)) (fun _ => not_disposes_event rfl rfl) ?_ rfl ?_
    · have hpos := List.length_pos_iff.mpr hcalls
      exact List.mem_map.mpr ⟨0, List.mem_range.mpr hpos, rfl⟩
    · exact List.pairwise_lt_range.map _ fun i k hlt => Nat.add_lt_add_left hlt _
    · change ∀ id ∈ (List.range calls.length).map (c.nextId + ·), c.nextId ≤ id ∧
        id < (c.step (.batch calls signalled broken)).1.nextId
      rw [hstep]
      intro id hid
      obtain ⟨i, hi, rfl⟩ := List.mem_map.mp hid
      exact ⟨Nat.le_add_right _ _, Nat.add_lt_add_left (List.mem_range.mp hi) _⟩
    · change (c.step (.batch calls signalled broken)).1.running = _
      rw [hstep]
    · change (c.step (.batch calls signalled broken)).1.pending = _
      rw [hstep]

theorem books_release (broken : Option String) :
    (Moment.mk c (.event (.release broken))).Books := by
  cases horphans : c.orphans with
  | nil =>
    have hstep := step_release_nil horphans broken
    refine books_of_same rfl rfl ?_ ?_ ?_ <;> rw [hstep]
    exact trivial
  | cons first orphans =>
    exact books_of_begin rfl rfl rfl (step_release_cons horphans broken) rfl

theorem books_unsubscribe (index : Nat) (broken : Option String) :
    (Moment.mk c (.event (.unsubscribe index broken))).Books := by
  have hstep : c.step (.unsubscribe index broken) = ((c.unsubscribe index broken).1,
    (c.unsubscribe index broken).2.elim .nothing .begun) := rfl
  rcases unsubscribe_eq c index with ⟨-, heq⟩ | ⟨s, -, -, ⟨-, heq⟩ | ⟨k, other, -, -, -, htells⟩⟩
  · rw [heq] at hstep
    refine books_of_same rfl rfl ?_ ?_ ?_ <;> rw [hstep]
    exact trivial
  · rw [heq] at hstep
    have hsame : ((c.deregister s.id).modifyStream index Stream.silence).requests =
      c.requests := requests_modifyStream _
    refine books_of_same rfl rfl ?_ ?_ ?_ <;> rw [hstep]
    · exact trivial
    · exact congrArg Requests.running hsame
    · exact congrArg Requests.pending hsame
  · obtain ⟨begun, heq, rfl⟩ := htells broken
    rw [heq] at hstep
    exact books_of_begin rfl rfl rfl hstep (requests_modifyStream _)

/-- What concerns one stream is in no book. -/
theorem books_of_modified {f : Stream → Stream} {index : Nat} (hreads : event.reads = false)
    (hfails : event.fails = false) (hquiet : (c.step event).2.IsQuiet)
    (hafter : (c.step event).1 = c.modifyStream index f) :
    (Moment.mk c (.event event)).Books := by
  have hrequests : (c.step event).1.requests = c.requests := by
    rw [hafter, requests_modifyStream]
  exact books_of_same hreads hfails hquiet (congrArg Requests.running hrequests)
    (congrArg Requests.pending hrequests)

theorem books_of_consumed {f : Stream → Stream × Received} {index : Nat}
    (hreads : event.reads = false) (hfails : event.fails = false)
    (hstep : c.step event = c.consume index f) : (Moment.mk c (.event event)).Books := by
  refine books_of_modified hreads hfails ?_ ((congrArg Prod.fst hstep).trans (consume_eq c index f))
  rw [hstep, consume]
  split <;> exact trivial

theorem isPending_retire (r : Requests) (op : Operation) (id : Nat) :
    (r.retire op).isPending id = (r.isPending id && !op.ids.contains id) := by
  rw [Bool.eq_iff_iff, Bool.and_eq_true, isPending_iff, isPending_iff]
  constructor
  · rintro ⟨expected, hmem⟩
    obtain ⟨hpending, hkept⟩ := List.mem_filter.mp hmem
    exact ⟨⟨expected, hpending⟩, hkept⟩
  · rintro ⟨⟨expected, hpending⟩, hkept⟩
    exact ⟨expected, List.mem_filter.mpr ⟨hpending, hkept⟩⟩

/-- An operation that ends takes what is pending of it along. -/
theorem books_finish (h : Reached config past c) (n : Nat) (wake : Wake) :
    (Moment.mk c (.event (.finish n wake))).Books := by
  have hstep : c.step (.finish n wake) =
    ((c.finish n wake).1, (c.finish n wake).2.elim .nothing .ended) := rfl
  rcases finish_cases c n wake with heq | ⟨o, result, ho, -, hresult, hafter⟩
  · rw [heq] at hstep
    refine books_of_same rfl rfl ?_ ?_ ?_ <;> rw [hstep]
    exact trivial
  · have hmem := List.mem_of_find?_eq_some ho
    have hid : o.id = n :=
      beq_iff_eq.mp (List.find?_some (p := fun other : Operation => other.id == n) ho)
    have hended : (Moment.mk c (.event (.finish n wake))).ended? = some o.id := by
      simp only [Moment.ended?, Moment.output, hstep, hresult, Option.elim_some, hid]
    have hbegun : (Moment.mk c (.event (.finish n wake))).begun? = none := by
      simp only [Moment.begun?, Moment.output, hstep, hresult, Option.elim_some]
    have hrequests : (c.finish n wake).1.requests = c.requests.retire o := by
      rcases hafter with ⟨heq, -⟩ | ⟨fault, index, -, -, heq⟩
      · rw [heq]
        rfl
      · rw [heq]
        change (c.discard index).requests.retire o = _
        rw [requests_discard]
    refine ⟨?_, ?_, ?_, fun id => ?_⟩
    · rw [hbegun]
      exact nofun
    · rw [hended]
      intro other heq
      exact ⟨o, hmem, Option.some.inj heq⟩
    · change (c.finish n wake).1.requests.running.map _ = _
      rw [hrequests, hended, hbegun, Option.toList_none, List.append_nil, List.filter_map]
      congr 1
      refine List.filter_congr fun other _ => ?_
      rw [Bool.eq_iff_iff, bne_iff_ne, Function.comp_apply, bne_iff_ne]
      exact not_congr (eq_comm.trans Option.some_inj.symm)
    · -- No other operation shares the id of the one that ends.
      have hown : (∀ op ∈ c.running, id ∈ op.ids → some o.id ≠ some op.id) ↔ id ∉ o.ids := by
        constructor
        · exact fun hall hin => hall o hmem hin rfl
        · intro hnot op hop hin heq
          cases h.accounted.eq_of_id hop hmem (Option.some.inj heq)
          exact hnot hin
      have hkept : ¬(Moment.mk c (.event (.finish n wake))).Disposes id :=
        not_disposes_event rfl rfl
      change (c.finish n wake).1.requests.isPending id = true ↔ _
      rw [hrequests, isPending_retire, hbegun, hended, hown, Bool.and_eq_true, Bool.not_eq_true',
        ← Bool.not_eq_true, List.contains_iff_mem, and_iff_right hkept]
      exact (or_iff_left fun ⟨_, hnew, _⟩ => nomatch hnew).symm

/-! ### The end of the reader -/

theorem Operation.Fails.initial {fault : Fault} {failing : List Nat} {r : Requests}
    {told : Operation} (h : op.Fails fault failing r told) : told.initial = op.initial := by
  rw [Operation.initial, h.sameId, h.sameIds, h.sameKind]
  rfl

/-- The end of the reader releases every pending request. -/
theorem books_of_teardown {reason : String} (h : Reached config past c)
    (hbegun : (Moment.mk c act).begun? = none) (hended : (Moment.mk c act).ended? = none)
    (hafter : c.perform act = c.teardown reason) : (Moment.mk c act).Books := by
  obtain ⟨tell, hrunning, htell⟩ := exists_running_teardown c reason
  rw [← hafter] at hrunning
  refine .of_quiet hbegun hended hrunning (fun op => (htell op).initial) fun id => ?_
  have hnone : (Moment.mk c act).after.isPending id = false := by
    change (c.perform act).isPending id = false
    rw [hafter, Channel.isPending, pending_teardown]
    rfl
  rw [hnone]
  constructor
  · intro hpending
    cases hpending
  · rintro ⟨hpending, hkept⟩
    by_cases hbefore : c.reader = .ended
    · change c.isPending id = true at hpending
      rw [Channel.isPending, (h.ended hbefore).2.1] at hpending
      cases hpending
    · refine absurd (Moment.Disposes.released hbefore ?_) hkept
      exact congrArg Channel.reader hafter

/-- A failure is of no concern to a reader that has not begun. -/
theorem books_fail (h : Reached config past c) (reason : String) :
    (Moment.mk c (.event (.fail reason))).Books := by
  rcases step_fail_cases c reason with ⟨-, heq⟩ | ⟨reader, hfresh, heq⟩
  · exact books_of_teardown h (begun?_eq_none trivial) (ended?_eq_none trivial) heq
  · refine books_of_reader (fun _ hended => ?_) trivial heq
    rw [hended] at hfresh
    cases hfresh

theorem books_crash (h : Reached config past c) (reason : String) :
    (Moment.mk c (.event (.crash reason))).Books := by
  rcases step_crash_cases c reason with ⟨-, heq⟩ | heq
  · exact books_of_teardown h (begun?_eq_none trivial) (ended?_eq_none trivial) heq
  · exact books_of_reader id trivial heq

/-! ### Frames -/

/-- A frame with an id disposes of the request of that id only. -/
theorem books_answer {frame : Frame} {rest : List Frame} {n : Int} (hidle : c.reader = .idle)
    (hid : frame.id = some n) : (Moment.mk c (.route frame rest)).Books := by
  have hroute : c.route frame = .ok (c.resolve n frame) := by
    rw [route, hid]
  have htaken : c.take frame rest = c.resolve n frame :=
    take_of_ok (reader_resolve.trans hidle) hroute
  have hdisposes (id : Nat) : (Moment.mk c (.route frame rest)).Disposes id ↔ (id : Int) = n := by
    constructor
    · intro h
      cases h with
      | answered hact hother =>
        cases hact
        exact Option.some.inj (hother.symm.trans hid)
      | rejected hact hnone =>
        cases hact
        cases hnone.symm.trans hid
      | released _ hafter => exact absurd hafter (reader_take_of_ok hidle hroute)
    · rintro rfl
      exact .answered rfl hid
  rcases resolve_cases c n frame with ⟨heq, hunknown⟩ |
    ⟨asked, expected, settlement, rfl, -, hrequests, -⟩
  · refine .of_same rfl rfl ?_ ?_ fun id hpending => ?_
    · exact congrArg Channel.running (htaken.trans heq)
    · exact congrArg Channel.pending (htaken.trans heq)
    · rw [hdisposes]
      intro hn
      cases hpending.symm.trans (hunknown id hn)
  · rw [← htaken] at hrequests
    refine .of_quiet rfl rfl (congrArg Requests.running hrequests) (fun op => ?_) fun id => ?_
    · split <;> rfl
    · change (c.take frame rest).requests.isPending id = true ↔ c.requests.isPending id = true ∧ _
      rw [hrequests, isPending_settle, hdisposes, Bool.and_eq_true, bne_iff_ne]
      exact and_congr_right' (not_congr Int.ofNat_inj.symm)

/-- An error without id disposes of the requests of the batch that it rejects. -/
theorem books_reject {frame : Frame} {rest : List Frame} {error : ServerFault}
    (hidle : c.reader = .idle) (hid : frame.id = none) (hnotice : frame.notice = none)
    (herror : frame.error = some error) : (Moment.mk c (.route frame rest)).Books := by
  have hroute : c.route frame = .ok (c.reject error) := by
    rw [route, hid, hnotice, herror]
  have htaken : c.take frame rest = c.reject error :=
    take_of_ok ((reader_reject error).trans hidle) hroute
  have hdisposes (id : Nat) : (Moment.mk c (.route frame rest)).Disposes id ↔
      ∃ ids, c.waitingBatch? = some ids ∧ id ∈ ids := by
    constructor
    · intro h
      cases h with
      | answered hact hother =>
        cases hact
        cases hother.symm.trans hid
      | rejected hact _ _ _ hbatch hmem => exact ⟨_, hbatch, hmem⟩
      | released _ hafter => exact absurd hafter (reader_take_of_ok hidle hroute)
    · rintro ⟨ids, hbatch, hmem⟩
      exact .rejected rfl hid hnotice herror hbatch hmem
  cases hbatch : c.waitingBatch? with
  | none =>
    have heq : c.reject error = c := by
      rw [reject, hbatch]
    refine .of_same rfl rfl ?_ ?_ fun id _ => ?_
    · exact congrArg Channel.running (htaken.trans heq)
    · exact congrArg Channel.pending (htaken.trans heq)
    · rw [hdisposes, hbatch]
      rintro ⟨_, hnone, _⟩
      cases hnone
  | some ids =>
    have hrequests : (c.take frame rest).requests =
        ids.foldl (Requests.fail (.batchRejected error)) c.requests := by
      rw [htaken, reject, hbatch, requests_foldl_fail]
    obtain ⟨tell, hrunning, htell⟩ := exists_fails (.batchRejected error) ids c.requests
    rw [← hrequests] at hrunning
    refine .of_quiet rfl rfl hrunning (fun op => (htell op).initial) fun id => ?_
    change (c.take frame rest).requests.isPending id = true ↔ c.requests.isPending id = true ∧ _
    rw [hrequests, isPending_foldl_fail, hdisposes, hbatch, Bool.and_eq_true, Bool.not_eq_true',
      ← Bool.not_eq_true, List.contains_iff_mem]
    simp

/-- Any other frame is about no request. -/
theorem books_of_other {frame : Frame} {rest : List Frame} (h : Reached config past c)
    (hidle : c.reader = .idle) (hid : frame.id = none)
    (hother : frame.notice ≠ none ∨ frame.error = none) :
    (Moment.mk c (.route frame rest)).Books := by
  cases hroute : c.route frame with
  | error fault => exact books_of_teardown h rfl rfl (take_of_error hroute)
  | ok next =>
    have hrequests : (c.take frame rest).requests = c.requests := by
      rw [requests_take_of_ok hroute]
      unfold route at hroute
      split at hroute
      · next hsome => cases hid.symm.trans hsome
      · rcases notify_eq_ok hroute with ⟨-, rfl⟩ | ⟨index, s, next, -, -, -, rfl⟩
        · rfl
        · exact requests_offered _
      · next hnotice herror =>
        rcases hother with hsome | hnone
        · exact absurd hnotice hsome
        · cases hnone.symm.trans herror
      · cases hroute
        rfl
    refine .of_same rfl rfl (congrArg Requests.running hrequests)
      (congrArg Requests.pending hrequests) fun id _ hdisposes => ?_
    cases hdisposes with
    | answered hact hsome =>
      cases hact
      cases hid.symm.trans hsome
    | rejected hact _ hnotice herror =>
      cases hact
      rcases hother with hsome | hnone
      · exact hsome hnotice
      · cases hnone.symm.trans herror
    | released _ hafter => exact reader_take_of_ok hidle hroute hafter

/-! ### Every moment -/

theorem books_event (h : Reached config past c) (hreads : event.reads = false) :
    (Moment.mk c (.event event)).Books := by
  cases event with
  | call | subscribe => exact books_of_begin (d := c) rfl rfl rfl rfl rfl
  | batch => exact books_batch _ _ _
  | release broken => exact books_release broken
  | unsubscribe index broken => exact books_unsubscribe index broken
  | gather n =>
    refine .of_quiet (begun?_eq_none trivial) (ended?_eq_none trivial) rfl (fun op => ?_)
      fun id => ?_
    · split <;> rfl
    · exact (and_iff_left (not_disposes_event rfl rfl)).symm
  | finish n wake => exact books_finish h n wake
  | accept | proceed => cases hreads
  | start =>
    obtain ⟨reader, heq⟩ := step_start_eq c
    refine books_of_same rfl rfl trivial ?_ ?_ <;> rw [heq]
  | fail reason => exact books_fail h reason
  | crash reason => exact books_crash h reason
  | shut => exact books_of_same rfl rfl trivial rfl rfl
  | receive index task => exact books_of_consumed (f := Stream.receive task) rfl rfl rfl
  | resume index task => exact books_of_consumed (f := Stream.resume task) rfl rfl rfl
  | leave index task => exact books_of_modified (f := Stream.leave task) rfl rfl trivial rfl
  | watch index task => exact books_of_modified (f := Stream.watch task) rfl rfl trivial rfl

/-- **What a moment does to the books**, in every state. -/
theorem Reached.books (h : Reached config past c) (hready : c.Ready act) :
    (Moment.mk c act).Books := by
  cases act with
  | event event => exact books_event h hready
  | route frame rest =>
    cases hid : frame.id with
    | some n => exact books_answer hready hid
    | none =>
      cases hnotice : frame.notice with
      | some notice =>
        refine books_of_other h hready hid (.inl ?_)
        rw [hnotice]
        exact nofun
      | none =>
        cases herror : frame.error with
        | some error => exact books_reject hready hid hnotice herror
        | none => exact books_of_other h hready hid (.inr herror)
  | retry =>
    have hrequests : c.retry.requests = c.requests := requests_retry hready
    refine .of_same rfl rfl (congrArg Requests.running hrequests)
      (congrArg Requests.pending hrequests) fun id _ hdisposes => ?_
    cases hdisposes with
    | answered hact => cases hact
    | rejected hact => cases hact
    | released _ hafter => exact reader_retry hready hafter

end Moments

/-! ## Every state -/

section Every

theorem inFlight_concat (past : List Moment) (m : Moment) : inFlight (past ++ [m]) =
    (inFlight past).filter (fun op => m.ended? != some op.id) ++ m.begun?.toList := by
  rw [inFlight, List.foldl_append]
  rfl

/-- What is in flight was begun. -/
theorem mem_begun_of_inFlight (h : op ∈ inFlight past) : op ∈ past.filterMap Moment.begun? := by
  induction past using List.reverseRecOn with
  | nil => cases h
  | append_singleton past m ih =>
    rw [inFlight_concat] at h
    rw [List.filterMap_append, List.mem_append]
    rcases List.mem_append.mp h with hold | hnew
    · exact .inl (ih (List.mem_filter.mp hold).1)
    · exact .inr (List.mem_filterMap.mpr ⟨m, List.mem_singleton_self m, Option.mem_toList.mp hnew⟩)

/-- **The operations that run are those in flight**, oldest first. -/
theorem Reached.running_eq (h : Reached config past c) :
    c.running.map Operation.initial = inFlight past := by
  induction h with
  | start => rfl
  | @perform past c act hready h ih =>
    rw [inFlight_concat, ← ih]
    exact (Reached.books h hready).running

theorem Reached.exists_running (h : Reached config past c) (hop : op ∈ inFlight past) :
    ∃ o ∈ c.running, o.initial = op := by
  rw [← h.running_eq] at hop
  exact List.mem_map.mp hop

/-- A request that is outstanding stays so, unless the moment disposes of it or ends its
operation. -/
theorem Outstanding.concat (h : Outstanding past id) (hkept : ¬m.Disposes id)
    (hlives : ∀ op ∈ inFlight past, id ∈ op.ids → m.ended? ≠ some op.id) :
    Outstanding (past ++ [m]) id := by
  obtain ⟨op, hop, hid, earlier, first, later, rfl, hbegun, hsince⟩ := h
  refine ⟨op, ?_, hid, earlier, first, later ++ [m], List.append_assoc .., hbegun, ?_⟩
  · rw [inFlight_concat]
    refine List.mem_append_left _ (List.mem_filter.mpr ⟨hop, ?_⟩)
    exact bne_iff_ne.mpr (hlives op hop hid)
  · intro other hother
    rcases List.mem_append.mp hother with hother | hlast
    · exact hsince other hother
    · rw [List.mem_singleton.mp hlast]
      exact hkept

/-- **The pending requests are those outstanding**: begun with an operation that still runs, and
neither answered nor rejected nor released since. -/
theorem Reached.isPending_iff (h : Reached config past c) :
    c.isPending id = true ↔ Outstanding past id := by
  induction h generalizing id with
  | start => exact ⟨nofun, fun ⟨_, hop, _⟩ => nomatch hop⟩
  | @perform past c act hready h ih =>
    have hbooks := Reached.books h hready
    refine (hbooks.pending id).trans ⟨?_, ?_⟩
    · rintro (⟨hpending, hkept, hlives⟩ | ⟨op, hbegun, hid⟩)
      · refine (ih.mp hpending).concat hkept fun op hop hid => ?_
        obtain ⟨o, ho, rfl⟩ := Reached.exists_running h hop
        exact hlives o ho hid
      · refine ⟨op, ?_, hid, past, ⟨c, act⟩, [], rfl, hbegun,
          List.forall_mem_nil _⟩
        rw [inFlight_concat, hbegun]
        exact List.mem_append_right _ (List.mem_singleton_self op)
    · rintro ⟨op, hop, hid, earlier, first, later, hsplit, hbegun, hsince⟩
      rw [inFlight_concat] at hop
      rcases List.mem_append.mp hop with hold | hnew
      · -- The operation was in flight before. If this moment has begun it again, there is nothing
        -- to be shown; otherwise it was begun before, and nothing has disposed of the request.
        obtain ⟨hold, hlives⟩ := List.mem_filter.mp hold
        rcases List.eq_nil_or_concat later with rfl | ⟨between, last, rfl⟩
        · obtain rfl := List.singleton_inj.mp (List.append_inj' hsplit rfl).2
          exact .inr ⟨op, hbegun, hid⟩
        · rw [List.concat_eq_append, ← List.cons_append, ← List.append_assoc] at hsplit
          obtain ⟨hbefore, hlast⟩ := List.append_inj' hsplit rfl
          obtain rfl := List.singleton_inj.mp hlast
          rw [List.concat_eq_append, List.forall_mem_append] at hsince
          obtain ⟨hbetween, hkept⟩ := hsince
          refine .inl ⟨ih.mpr ⟨op, hold, hid, earlier, first, between, hbefore, hbegun, hbetween⟩,
            hkept _ (List.mem_singleton_self _), fun o ho hown hended => ?_⟩
          obtain ⟨other, hother, rfl⟩ := Reached.exists_running h hold
          have hsame := (Reached.accounted h).unique ho hother hown hid
          rw [hsame] at hended
          exact bne_iff_ne.mp hlives hended
      · exact .inr ⟨op, Option.mem_toList.mp hnew, hid⟩

/-- **The batches are those in flight**, oldest first. -/
theorem Reached.batches_eq (h : Reached config past c) :
    c.batches = ((inFlight past).filter Operation.isBatch).map Operation.ids := by
  have hbatches : c.batches = (c.running.filter Operation.isBatch).map Operation.ids :=
    h.awaits.batches
  rw [hbatches, ← h.running_eq]
  have hids (op : Operation) : op.initial.ids = op.ids := rfl
  exact (map_ids_filter_map hids (fun _ => rfl) _).symm

/-- No id is used twice. -/
theorem nextId_perform (hready : c.Ready act) : c.nextId ≤ (c.perform act).nextId := by
  change c.requests.nextId ≤ (c.perform act).requests.nextId
  rcases requests_perform hready with ⟨_, _, _, _, -, -, -, hrequests, -⟩ | ⟨-, heffect⟩
  · rw [hrequests]
    exact Nat.le_refl _
  · generalize (c.perform act).requests = after at heffect ⊢
    cases heffect with
    | same | gathers | retires => exact Nat.le_refl _
    | begins _ hbegins => cases hbegins <;> exact Nat.le_add_right _ _
    | fails => exact Nat.le_of_eq (nextId_foldl_fail ..).symm

/-- The ids of all operations that were begun ascend. -/
theorem Reached.begun_ascending (h : Reached config past c) :
    ((past.filterMap Moment.begun?).flatMap Operation.ids).Pairwise (· < ·) ∧
      ∀ id ∈ (past.filterMap Moment.begun?).flatMap Operation.ids, id < c.nextId := by
  induction h with
  | start => exact ⟨.nil, List.forall_mem_nil _⟩
  | @perform past c act hready h ih =>
    obtain ⟨hascending, hbound⟩ := ih
    have hnext := nextId_perform hready
    rw [List.filterMap_append, List.flatMap_append]
    cases hbegun : (Moment.mk c act).begun? with
    | none =>
      rw [List.filterMap_cons_none hbegun, List.filterMap_nil, List.flatMap_nil, List.append_nil]
      exact ⟨hascending, fun id hid => Nat.lt_of_lt_of_le (hbound id hid) hnext⟩
    | some op =>
      obtain ⟨-, hids, hnew⟩ := (Reached.books h hready).begun op hbegun
      rw [List.filterMap_cons_some hbegun, List.filterMap_nil, List.flatMap_singleton]
      refine ⟨List.pairwise_append.mpr ⟨hascending, hids, fun old hold id hid => ?_⟩, ?_⟩
      · exact Nat.lt_of_lt_of_le (hbound old hold) (hnew id hid).1
      · rw [List.forall_mem_append]
        exact ⟨fun id hid => Nat.lt_of_lt_of_le (hbound id hid) hnext,
          fun id hid => (hnew id hid).2⟩

/-- An operation that was begun is known by each of its ids. -/
theorem Reached.begun_unique {other : Operation} (h : Reached config past c)
    (hop : op ∈ past.filterMap Moment.begun?) (hother : other ∈ past.filterMap Moment.begun?)
    (hid : id ∈ op.ids) (hshared : id ∈ other.ids) : op = other := by
  have hnodup : ((past.filterMap Moment.begun?).flatMap Operation.ids).Nodup :=
    h.begun_ascending.1.imp Nat.ne_of_lt
  have hapart : (past.filterMap Moment.begun?).Pairwise fun op other =>
      ∀ id ∈ op.ids, id ∉ other.ids :=
    (List.nodup_flatMap.mp hnodup).2.imp fun hdisjoint id hid hshared => hdisjoint hid hshared
  exact Operation.eq_of_shared hapart hop hother hid hshared

/-- An operation that has ended is not in flight. -/
theorem Reached.not_inFlight_of_ended {n : Nat} (h : Reached config past c) (hm : m ∈ past)
    (hended : m.ended? = some n) : n < c.nextId ∧ ∀ op ∈ inFlight past, op.id ≠ n := by
  induction h with
  | start => cases hm
  | @perform past c act hready h ih =>
    have hbooks := Reached.books h hready
    have hnext := nextId_perform hready
    have hnew (hlt : n < c.nextId) : ∀ op ∈ (Moment.mk c act).begun?.toList, op.id ≠ n := by
      rintro op hop rfl
      obtain ⟨hfirst, -, hids⟩ := hbooks.begun op (Option.mem_toList.mp hop)
      exact absurd (hids _ hfirst).1 (Nat.not_le.mpr hlt)
    rw [inFlight_concat, List.forall_mem_append]
    rcases List.mem_append.mp hm with hold | hlast
    · obtain ⟨hlt, hgone⟩ := ih hold
      refine ⟨Nat.lt_of_lt_of_le hlt hnext, fun op hop => ?_, hnew hlt⟩
      exact hgone op (List.mem_filter.mp hop).1
    · rw [List.mem_singleton.mp hlast] at hended
      obtain ⟨o, ho, rfl⟩ := hbooks.ended n hended
      have hrunning := (Reached.accounted h).operations o ho
      have hlt : o.id < c.nextId := hrunning.bound o.id hrunning.first
      refine ⟨Nat.lt_of_lt_of_le hlt hnext, fun op hop heq => ?_, hnew hlt⟩
      have hkept := bne_iff_ne.mp (List.mem_filter.mp hop).2
      rw [hended, heq] at hkept
      exact hkept rfl

theorem sublist_pending_foldl_fail (fault : Fault) (failing : List Nat) (r : Requests) :
    (failing.foldl (Requests.fail fault) r).pending.Sublist r.pending := by
  induction failing generalizing r with
  | nil => exact List.Sublist.refl _
  | cons n failing ih =>
    rw [List.foldl_cons]
    refine (ih _).trans ?_
    rw [Requests.fail]
    split
    · exact List.filter_sublist
    · exact List.Sublist.refl _

/-- The keys of the pending requests ascend, so none is there twice. -/
theorem Reached.pending_ascending (h : Reached config past c) :
    (c.pending.map Prod.fst).Pairwise (· < ·) := by
  induction h with
  | start => exact .nil
  | @perform past c act hready h ih =>
    have hsub {entries : List (Nat × Expected)} (hentries : entries.Sublist c.pending) :
        (entries.map Prod.fst).Pairwise (· < ·) := ih.sublist (hentries.map _)
    change ((c.perform act).requests.pending.map Prod.fst).Pairwise _
    rcases requests_perform hready with ⟨_, _, _, _, -, -, -, hrequests, -⟩ | ⟨-, heffect⟩
    · rw [hrequests]
      exact hsub List.filter_sublist
    · generalize (c.perform act).requests = after at heffect ⊢
      cases heffect with
      | same | gathers => exact ih
      | fails => exact hsub (sublist_pending_foldl_fail _ _ c.requests)
      | retires => exact hsub List.filter_sublist
      | begins _ hbegins =>
        cases hbegins with
        | unsent n => exact ih
        | @launched op expected outgoing hlaunches =>
          have hold : ∀ id ∈ c.pending.map Prod.fst, id < c.nextId := by
            rintro id hid
            obtain ⟨⟨id, other⟩, hpending, rfl⟩ := List.mem_map.mp hid
            obtain ⟨o, ho, hown, -⟩ := (Reached.accounted h).asked id other hpending
            exact ((Reached.accounted h).operations o ho).bound id hown
          change ((c.pending ++ op.ids.map fun id => (id, expected)).map Prod.fst).Pairwise _
          have hids : (op.ids.map fun id => (id, expected)).map Prod.fst = op.ids := by
            rw [List.map_map]
            exact List.map_id _
          rw [List.map_append, hids, hlaunches.ids]
          refine List.pairwise_append.mpr ⟨ih, ?_, fun id hid new hnew => ?_⟩
          · exact List.pairwise_lt_range.map _ fun i k hlt => Nat.add_lt_add_left hlt _
          · obtain ⟨i, -, rfl⟩ := List.mem_map.mp hnew
            exact Nat.lt_of_lt_of_le (hold id hid) (Nat.le_add_right _ _)

/-- An operation that is refused leaves nothing behind. -/
theorem Moment.Books.refused (h : m.Books) (hreached : Reached config past m.before)
    (hready : m.before.Ready m.act) {fault : Fault} (hout : m.output = .begun (.error fault)) :
    (∀ id, m.after.isPending id = m.before.isPending id) ∧ m.after.batches = m.before.batches := by
  have hquiet : m.output.IsQuiet := by
    rw [hout]
    exact trivial
  have hbegun : m.begun? = none := begun?_eq_none hquiet
  have hended : m.ended? = none := ended?_eq_none hquiet
  have hkept (id : Nat) : ¬m.Disposes id := by
    obtain ⟨c, act⟩ := m
    cases act with
    | event event =>
      refine not_disposes_event hready ?_
      cases event with
      | fail | crash => cases hout
      | _ => rfl
    | route | retry => cases hout
  constructor
  · intro id
    rw [Bool.eq_iff_iff, h.pending, hbegun, hended]
    simp [hkept]
  · have hsame : inFlight (past ++ [m]) = inFlight past := by
      rw [inFlight_concat, hbegun, hended, Option.toList_none, List.append_nil,
        List.filter_eq_self.mpr]
      exact fun _ _ => rfl
    have hlater : Reached config (past ++ [m]) m.after := hreached.perform m.act hready
    rw [hlater.batches_eq, hreached.batches_eq, hsame]

/-- **Nothing is left behind, and nothing is missing.** In every run the pending requests are those
that were begun with an operation in flight and that nothing has disposed of since, and the batches
are those in flight, oldest first. So no request of an operation that has ended is pending or in a
batch, an operation that is refused changes neither, and where nothing is in flight there is
nothing of either. -/
theorem bookkeeping_exact (config : Config) (events : List Event) :
    let past := history events { config }
    let c := Channel.after events { config }
    (c.pending.map Prod.fst).Pairwise (· < ·) ∧
    (∀ id, id ∈ c.pending.map Prod.fst ↔ Outstanding past id) ∧
    c.batches = ((inFlight past).filter Operation.isBatch).map Operation.ids ∧
    (∀ op ∈ past.filterMap Moment.begun?, (∃ m ∈ past, m.ended? = some op.id) →
      ∀ id ∈ op.ids, id ∉ c.pending.map Prod.fst ∧ ∀ batch ∈ c.batches, id ∉ batch) ∧
    (∀ m ∈ past, ∀ fault, m.output = .begun (.error fault) →
      (∀ id, m.after.isPending id = m.before.isPending id) ∧ m.after.batches = m.before.batches) ∧
    (inFlight past = [] → c.pending = [] ∧ c.batches = []) := by
  intro past c
  have hreached : Reached config past c := reached_after config events
  have hkeys (id : Nat) : id ∈ c.pending.map Prod.fst ↔ Outstanding past id := by
    rw [← hreached.isPending_iff, Channel.isPending, List.any_eq_true, List.mem_map]
    simp only [beq_iff_eq]
  refine ⟨hreached.pending_ascending, hkeys, hreached.batches_eq, ?_, ?_, ?_⟩
  · rintro op hop ⟨m, hm, hended⟩ id hid
    obtain ⟨-, hgone⟩ := hreached.not_inFlight_of_ended hm hended
    -- An operation in flight that has the id is this one, which is not in flight.
    have hnone : ∀ other ∈ inFlight past, id ∉ other.ids := by
      intro other hother hshared
      have hsame := hreached.begun_unique (mem_begun_of_inFlight hother) hop hshared hid
      exact hgone other hother (congrArg Operation.id hsame)
    constructor
    · rw [hkeys]
      rintro ⟨other, hother, hshared, -⟩
      exact hnone other hother hshared
    · intro batch hbatch
      rw [hreached.batches_eq] at hbatch
      obtain ⟨other, hother, rfl⟩ := List.mem_map.mp hbatch
      exact hnone other (List.mem_filter.mp hother).1
  · intro m hm fault hout
    obtain ⟨earlier, -, -, hbefore, hready⟩ := hreached.before hm
    exact (Reached.books hbefore hready).refused hbefore hready hout
  · intro hnone
    have hempty : c.pending.map Prod.fst = [] := by
      rw [List.eq_nil_iff_forall_not_mem]
      intro id hid
      obtain ⟨op, hop, -⟩ := (hkeys id).mp hid
      rw [hnone] at hop
      cases hop
    refine ⟨List.map_eq_nil_iff.mp hempty, ?_⟩
    rw [hreached.batches_eq, hnone]
    rfl

/-- The caller of a call is ended while a batch waits. -/
theorem bookkeeping_exact_call_ended :
    let events : List Event := [.call "getSlot" [] false none,
      .batch [⟨"getSlot", [], Rpc.Shape.anything⟩] false none, .finish 1 .abort]
    let past := history events { config := {} }
    let c := Channel.after events { config := {} }
    c.pending.map Prod.fst = [2] ∧ Outstanding past 2 ∧ ¬Outstanding past 1 ∧
      ((inFlight past).filter Operation.isBatch).map Operation.ids = [[2]] := by
  intro events past c
  obtain ⟨-, hkeys, hbatches, -⟩ := bookkeeping_exact {} events
  have hpending : c.pending.map Prod.fst = [2] := by
    cbv
  have hwaiting : c.batches = [[2]] := by
    cbv
  refine ⟨hpending, (hkeys 2).mp ?_, fun hone => ?_, hbatches.symm.trans hwaiting⟩
  · change 2 ∈ c.pending.map Prod.fst
    rw [hpending]
    exact List.mem_singleton_self 2
  · have hmem : 1 ∈ c.pending.map Prod.fst := (hkeys 1).mpr hone
    rw [hpending] at hmem
    exact absurd hmem (by decide)

end Every

end LedgerClient.Channel
