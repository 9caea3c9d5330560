import Mathlib
import LedgerClient.Proofs.Channel.Agreement

/-!
# Requests and their answers

An operation that is answered is told what the first answers to its own requests say. Everything
else that a caller can be told, it is told by the client: that it has given up, that its requests
were not sent, or that the channel has ended. A frame with an id concerns the request of that id
only.

Fixed texts are evaluated by `cbv` here, whose equations for strings and bytes are spread over the
whole library.

## Main definitions

* `Channel.Tells`: what the first answers say about the result of an operation
* `Channel.Concerns`: what a frame with an id may change

## Main results

* `Channel.Reached.tells`: what a caller is told comes from the first answers to its own requests
* `Channel.Reached.concerns`: a frame concerns its own request only
* `Channel.requests_correlated`: both, in every run
-/

namespace LedgerClient.Channel

open Rpc (Frame)

variable {config : Config} {past : List Moment} {c : Channel} {r : Requests}
  {numbers : List Int} {id : Nat} {op : Operation} {host : Host}

/-! ## What callers are told -/

section Callers

/-- What the first answers say about the result of an operation. -/
def Tells (host : Host) (past : List Moment) (numbers : List Int) (op : Operation) : Result → Prop
  | .text text => op.ids = [op.id] ∧ ∃ frame, firstAnswer past op.id = some frame ∧
    frame.error = none ∧ text = frame.result
  | .stream k => op.ids = [op.id] ∧ ∃ frame number, firstAnswer past op.id = some frame ∧
    frame.error = none ∧ granted? host frame = some number ∧ numbers[k]? = some number
  | .entries entries =>
    entries.map some = op.ids.map fun id => (firstAnswer past id).map Frame.entry
  | .failed fault => ∀ error, fault = .server error → op.ids = [op.id] ∧
    ∃ frame, firstAnswer past op.id = some frame ∧ frame.error = some error

/-- A caller is told what came of its operation, or why it gave up. -/
theorem verdict?_cases {wake : Wake} {result : Result} (h : op.verdict? wake = some result) :
    op.answered = true ∧ result = op.result ∨
    ∃ fault, result = .failed fault ∧ ∀ error, fault ≠ .server error := by
  have hfailed {fault : Fault} (h : (some (.failed fault) : Option Result) = some result)
      (hfault : ∀ error, fault ≠ .server error) :
      ∃ fault, result = .failed fault ∧ ∀ error, fault ≠ .server error :=
    ⟨fault, (Option.some.inj h).symm, hfault⟩
  unfold Operation.verdict? at h
  split at h
  · exact .inr (hfailed h fun error => nofun)
  · exact .inr (hfailed h fun error => nofun)
  · split at h
    · next hanswered =>
      cases h
      exact .inl ⟨hanswered, rfl⟩
    · split at h
      · exact .inr (hfailed h fun error => nofun)
      · exact .inr (hfailed h fun error => nofun)
      · cases h

theorem mem_of_firstFault {settled : List (Nat × Settlement)} {fault : Fault}
    (h : Operation.firstFault settled = some fault) : ∃ id, (id, .fault fault) ∈ settled := by
  induction settled with
  | nil => cases h
  | cons first others ih =>
    obtain ⟨id, settlement⟩ := first
    cases settlement with
    | fault other =>
      cases h
      exact ⟨id, List.mem_cons_self ..⟩
    | _ =>
      obtain ⟨id, hmem⟩ := ih h
      exact ⟨id, List.mem_cons_of_mem _ hmem⟩

theorem firstFault_ne_none {settled : List (Nat × Settlement)} {fault : Fault}
    (h : (id, .fault fault) ∈ settled) : Operation.firstFault settled ≠ none := by
  obtain ⟨before, behind, rfl⟩ := List.append_of_mem h
  rw [firstFault_append, Ne, Option.or_eq_none_iff]
  exact fun hnone => nomatch hnone.2

/-- Where every member gives something, nothing is left out. -/
theorem map_some_filterMap {α β : Type} {f : α → Option β} {xs : List α}
    (h : ∀ x ∈ xs, ∃ y, f x = some y) : (xs.filterMap f).map some = xs.map f := by
  induction xs with
  | nil => rfl
  | cons x xs ih =>
    obtain ⟨⟨y, hy⟩, hxs⟩ := List.forall_mem_cons.mp h
    rw [List.filterMap_cons, hy, List.map_cons, List.map_cons, hy, ih hxs]

theorem mem_of_lookup {settled : List (Nat × Settlement)} {settlement : Settlement}
    (h : settled.lookup id = some settlement) : (id, settlement) ∈ settled := by
  induction settled with
  | nil => cases h
  | cons first others ih =>
    obtain ⟨n, other⟩ := first
    rw [List.lookup_cons] at h
    split at h
    · next hkey =>
      cases h
      rw [beq_iff_eq.mp hkey]
      exact List.mem_cons_self ..
    · exact List.mem_cons_of_mem _ (ih h)

/-- A batch without fault is told what the first answers say, in the order of its requests. -/
theorem Operation.Accounted.entries (h : op.Accounted host past numbers r)
    (hbatch : op.isBatch = true) (hanswered : op.answered = true)
    (hnone : Operation.firstFault op.settled = none) :
    op.entries.map some = op.ids.map fun id => (firstAnswer past id).map Frame.entry := by
  have hall : op.ids.all (fun id => op.settled.any (·.1 == id)) = true := by
    have hcomplete := h.complete hanswered
    rwa [Operation.isComplete, hnone, Option.isSome_none, Bool.false_or] at hcomplete
  have hentry (id : Nat) (hid : id ∈ op.ids) : ∃ entry,
      op.settled.lookup id = some (.entry entry) ∧
        (firstAnswer past id).map Frame.entry = some entry := by
    cases hlookup : op.settled.lookup id with
    | none =>
      obtain ⟨⟨n, settlement⟩, hmem, hkey⟩ := List.any_eq_true.mp (List.all_eq_true.mp hall id hid)
      have hmissing := List.lookup_eq_none_iff.mp hlookup _ hmem
      rw [beq_iff_eq.mp hkey] at hmissing
      exact absurd hmissing (by simp)
    | some settlement =>
      have hmem := mem_of_lookup hlookup
      obtain ⟨-, -, ⟨frame, hfirst, hfits⟩ | ⟨fault, rfl, -⟩⟩ := h.settled id settlement hmem
      · rw [hbatch] at hfits
        cases settlement with
        | entry entry =>
          refine ⟨entry, rfl, ?_⟩
          rw [hfirst, Option.map_some, hfits.2]
        | fault fault => exact absurd hnone (firstFault_ne_none hmem)
        | text | stream => cases hfits.1
      · exact absurd hnone (firstFault_ne_none hmem)
  rw [Operation.entries, map_some_filterMap]
  · refine List.map_congr_left fun id hid => ?_
    obtain ⟨entry, hlookup, hfirst⟩ := hentry id hid
    rw [hlookup, hfirst]
  · intro id hid
    obtain ⟨entry, hlookup, -⟩ := hentry id hid
    rw [hlookup]
    exact ⟨entry, rfl⟩

/-- What an operation is told comes from the first answers to its requests. -/
theorem Operation.Accounted.tells (h : op.Accounted host past numbers r)
    (hanswered : op.answered = true) : Tells host past numbers op op.result := by
  unfold Operation.result
  split
  · next fault hfault =>
    obtain ⟨id, hmem⟩ := mem_of_firstFault hfault
    obtain ⟨hid, -, ⟨frame, hfirst, hfits⟩ | ⟨other, heq, hother⟩⟩ := h.settled id _ hmem
    · intro error herror
      obtain ⟨hsingle, hframe⟩ := hfits
      rw [h.eq_first hsingle hid] at hfirst
      exact ⟨h.single hsingle, frame, hfirst, hframe error herror⟩
    · cases heq
      exact fun error herror => absurd herror (hother error)
  · next hnone =>
    split
    · next hbatch => exact h.entries hbatch hanswered hnone
    · next hsingle =>
      have hsingle : op.isBatch = false := Bool.eq_false_iff.mpr hsingle
      split
      · next id text _ hsettled =>
        have hmem : (id, .text text) ∈ op.settled := by
          rw [hsettled]
          exact List.mem_cons_self ..
        obtain ⟨hid, -, ⟨frame, hfirst, hfits⟩ | ⟨other, heq, -⟩⟩ := h.settled id _ hmem
        · rw [h.eq_first hsingle hid] at hfirst
          exact ⟨h.single hsingle, frame, hfirst, hfits.2⟩
        · cases heq
      · next id k _ hsettled =>
        have hmem : (id, .stream k) ∈ op.settled := by
          rw [hsettled]
          exact List.mem_cons_self ..
        obtain ⟨hid, -, ⟨frame, hfirst, hfits⟩ | ⟨other, heq, -⟩⟩ := h.settled id _ hmem
        · obtain ⟨-, herror, number, hgranted, hnumber⟩ := hfits
          rw [h.eq_first hsingle hid] at hfirst
          exact ⟨h.single hsingle, frame, number, hfirst, herror, hgranted, hnumber⟩
        · cases heq
      · exact fun error => nofun

/-- Whatever a caller is told comes from the first answers to its own requests. -/
theorem Reached.tells {op : Nat} {wake : Wake} {result : Result} (h : Reached config past c)
    (hfinish : (c.finish op wake).2 = some result) :
    ∃ o ∈ c.running, o.id = op ∧ Tells config.host past c.numbers o result := by
  rcases finish_cases c op wake with heq | ⟨o, other, ho, hverdict, hresult, -⟩
  · rw [heq] at hfinish
    cases hfinish
  · cases hresult.symm.trans hfinish
    have hmem := List.mem_of_find?_eq_some ho
    have hid : (o.id == op) = true :=
      List.find?_some (p := fun other : Operation => other.id == op) ho
    refine ⟨o, hmem, beq_iff_eq.mp hid, ?_⟩
    rcases verdict?_cases hverdict with ⟨hanswered, rfl⟩ | ⟨fault, rfl, hfault⟩
    · exact (h.accounted.operations o hmem).tells hanswered
    · exact fun error herror => absurd herror (hfault error)

end Callers

/-! ## What a frame concerns -/

section Frames

/-- What a frame with an id may change: the request of that id, and what its operation was told. -/
structure Concerns (id : Int) (before after : Requests) : Prop where
  sent : after.sent = before.sent
  next : after.nextId = before.nextId
  batches : after.batches = before.batches
  pending : ∀ (n : Nat) (expected : Expected), (n : Int) ≠ id →
    ((n, expected) ∈ after.pending ↔ (n, expected) ∈ before.pending)
  running : ∃ tell : Operation → Operation, after.running = before.running.map tell ∧
    ∀ op ∈ before.running, tell op = op ∨ ∃ n ∈ op.ids, ∃ settlement, (n : Int) = id ∧
      tell op = op.settle n settlement

theorem concerns_self (id : Int) (r : Requests) : Concerns id r r :=
  ⟨rfl, rfl, rfl, fun _ _ _ => Iff.rfl, fun op => op, (List.map_id r.running).symm,
    fun _ _ => .inl rfl⟩

theorem concerns_settle (id : Nat) (settlement : Settlement) (r : Requests) :
    Concerns id r (r.settle id settlement) := by
  refine ⟨rfl, rfl, rfl, fun n expected hn => ?_, _, rfl, fun op _ => ?_⟩
  · have hne : n ≠ id := fun heq => hn (congrArg _ heq)
    exact List.mem_filter.trans (and_iff_left (decide_eq_true hne))
  · split
    · next hmem => exact .inr ⟨id, List.contains_iff_mem.mp hmem, settlement, rfl, rfl⟩
    · exact .inl rfl

/-- A frame with an id concerns the request of that id only, and no one if that request is
unknown, answered or abandoned. -/
theorem Reached.concerns {frame : Frame} {rest : List Frame} {id : Int}
    (h : Reached config past c) (hidle : c.reader = .idle) (hid : frame.id = some id) :
    Concerns id c.requests (c.take frame rest).requests ∧
    ((∀ op ∈ c.running, ∀ n ∈ op.ids, (n : Int) = id →
      ∃ settlement, (n, settlement) ∈ op.settled) → c.take frame rest = c) := by
  have hroute : c.route frame = .ok (c.resolve id frame) := by
    rw [route, hid]
  rw [take_of_ok (reader_resolve.trans hidle) hroute]
  rcases resolve_cases c id frame with ⟨heq, -⟩ |
    ⟨n, expected, settlement, rfl, hpending, hrequests, -⟩
  · rw [heq]
    exact ⟨concerns_self id _, fun _ => rfl⟩
  · refine ⟨hrequests ▸ concerns_settle n settlement _, fun hsettled => ?_⟩
    -- A pending request belongs to an operation that has not been told.
    obtain ⟨op, hop, hn, -⟩ := h.accounted.asked n expected hpending
    obtain ⟨other, hmem⟩ := hsettled op hop n hn rfl
    have hgone := ((h.accounted.operations op hop).settled n other hmem).2.1
    cases hgone.symm.trans (isPending_iff.mpr ⟨expected, hpending⟩)

end Frames

/-- **Every caller is told what the first answers to its own requests say, and a frame concerns no
one else.** No two requests have the same id. What a call, an entry of a batch or a subscription is
told comes from the first frame with its id that was routed while it was pending. A frame changes
the outcome of no other request, and changes nothing at all if its id is unknown, if the request was
answered, or if its operation has ended. -/
theorem requests_correlated (config : Config) (events : List Event) :
    let past := history events { config }
    let c := Channel.after events { config }
    (c.sent.flatMap Outgoing.ids).Pairwise (· < ·) ∧
    (∀ op wake result, (c.finish op wake).2 = some result →
      ∃ o ∈ c.running, o.id = op ∧ Tells config.host past c.numbers o result) ∧
    ∀ m ∈ past, ∀ frame rest id, m.act = .route frame rest → frame.id = some id →
      Concerns id m.before.requests m.after.requests ∧
      ((∀ op ∈ m.before.running, ∀ n ∈ op.ids, (n : Int) = id →
        ∃ settlement, (n, settlement) ∈ op.settled) → m.after = m.before) := by
  intro past c
  have hreached : Reached config past c := reached_after config events
  refine ⟨hreached.accounted.sent, fun op wake result => hreached.tells, ?_⟩
  intro m hm frame rest id hact hid
  obtain ⟨earlier, -, -, hbefore, hready⟩ := hreached.before hm
  obtain ⟨before, act⟩ := m
  cases hact
  exact Reached.concerns hbefore hready hid

/-- Two calls are answered in the other order, and one of them is answered again. -/
theorem requests_correlated_crossing :
    let events : List Event :=
      [.start, .call "getSlot" [] false none, .call "getBlockHeight" [] false none,
        .accept (Utf8.encode "\x7b\"id\":2,\"result\":8\x7d"),
        .accept (Utf8.encode "\x7b\"id\":1,\"result\":7\x7d"),
        .accept (Utf8.encode "\x7b\"id\":1,\"result\":9\x7d")]
    ((Channel.after events { config := {} }).finish 1 .answer).2 =
      some (.text (Utf8.encode "7")) ∧
    ∃ frame, firstAnswer (history events { config := {} }) 1 = some frame ∧ frame.error = none ∧
      frame.result = Utf8.encode "7" := by
  intro events
  have hfinish : ((Channel.after events { config := {} }).finish 1 .answer).2 =
      some (.text (Utf8.encode "7")) := by
    cbv
  obtain ⟨-, htells, -⟩ := requests_correlated {} events
  obtain ⟨o, -, hid, -, frame, hfirst, herror, hresult⟩ := htells _ _ _ hfinish
  rw [hid] at hfirst
  exact ⟨hfinish, frame, hfirst, herror, hresult.symm⟩

end LedgerClient.Channel
